import Mathlib.Data.List.Basic
import Mathlib.Data.List.Forall2
import Mathlib.Algebra.Group.Int

/-!
# The projection operator

`parseInput`, `Project::init`, `Project::mapinit` and `Project::map`
(`pythia/operators/project.cpp`). `parseInput` reads an `int` with `istringstream >>` in the C
locale; `Schema` is not among the sources, so a source schema is its list of column
descriptions, a tuple its list of column values, and an access past the end is `none`.
-/

namespace ImpalaBackend

/-- `s.find('$')` and `s.substr(l + 1)`: the text after the first `$`. -/
def afterDollar : List Char → Option (List Char)
  | [] => none
  | c :: rest => if c = '$' then some rest else afterDollar rest

/-- `isspace` in the C locale. -/
def isCSpace (c : Char) : Bool :=
  c = ' ' || c = '\t' || c = '\n' || c = '\x0b' || c = '\x0c' || c = '\r'

def decimalValue (ds : List Char) : Nat := ds.foldl (fun acc c => 10 * acc + (c.toNat - '0'.toNat)) 0

def splitSign : List Char → Bool × List Char
  | '-' :: r => (true, r)
  | '+' :: r => (false, r)
  | r => (false, r)

/-- `ss >> ret` into an `int`: white space, an optional sign, then the longest run of decimal
digits, whose value must fit in an `int`; `none` is the stream's fail state. -/
def extractInt (s : List Char) : Option Int :=
  let ds := (splitSign (s.dropWhile isCSpace)).2.takeWhile Char.isDigit
  let v : Int := if (splitSign (s.dropWhile isCSpace)).1 then -decimalValue ds else decimalValue ds
  if ds = [] then none else if -2 ^ 31 ≤ v ∧ v < 2 ^ 31 then some v else none

/-- `parseInput(s)`: the `int` after the first `$`, `-1` on failure. -/
def parseInput (s : String) : Int :=
  match afterDollar s.toList with
  | none => -1
  | some remainder => (extractInt remainder).getD (-1)

/-! ## Decimal numerals

`toString n` writes the digits `Nat.toDigits 10 n`; `decimalValue` reads them back. -/

theorem toDigitsCore_succ (fuel n : Nat) (ds : List Char) :
    Nat.toDigitsCore 10 (fuel + 1) n ds = if n / 10 = 0 then Nat.digitChar (n % 10) :: ds
      else Nat.toDigitsCore 10 fuel (n / 10) (Nat.digitChar (n % 10) :: ds) := rfl

theorem toDigitsCore_append (fuel : Nat) : ∀ (n : Nat) (ds : List Char), n < fuel →
    Nat.toDigitsCore 10 fuel n ds = Nat.toDigitsCore 10 fuel n [] ++ ds := by
  induction fuel with
  | zero => intro n ds h; omega
  | succ fuel ih =>
    intro n ds h
    rw [toDigitsCore_succ, toDigitsCore_succ]
    split
    · rfl
    · rw [ih _ _ (by omega), ih _ [_] (by omega), List.append_assoc, List.singleton_append]

theorem toDigitsCore_fuel (fuel fuel' : Nat) : ∀ (n : Nat) (ds : List Char), n < fuel → n < fuel' →
    Nat.toDigitsCore 10 fuel n ds = Nat.toDigitsCore 10 fuel' n ds := by
  induction fuel generalizing fuel' with
  | zero => intro n ds h; omega
  | succ fuel ih =>
    intro n ds h h'
    obtain ⟨fuel', rfl⟩ : ∃ f, fuel' = f + 1 := ⟨fuel' - 1, by omega⟩
    rw [toDigitsCore_succ, toDigitsCore_succ]
    split
    · rfl
    · exact ih fuel' _ _ (by omega) (by omega)

theorem toDigits_ten (n : Nat) :
    Nat.toDigits 10 n =
      (if n / 10 = 0 then [] else Nat.toDigits 10 (n / 10)) ++ [Nat.digitChar (n % 10)] := by
  change Nat.toDigitsCore 10 (n + 1) n [] = _
  rw [toDigitsCore_succ]
  split
  · rfl
  · rw [toDigitsCore_append _ _ _ (by omega),
      toDigitsCore_fuel n (n / 10 + 1) _ _ (by omega) (by omega)]
    rfl

theorem toDigits_ne_nil (n : Nat) : Nat.toDigits 10 n ≠ [] := by
  rw [toDigits_ten]; simp

theorem isDigit_digitChar : ∀ d < 10, (Nat.digitChar d).isDigit = true := by
  decide

theorem digitChar_value : ∀ d < 10, (Nat.digitChar d).toNat - '0'.toNat = d := by
  decide

theorem decimalValue_append_singleton (ds : List Char) (c : Char) :
    decimalValue (ds ++ [c]) = 10 * decimalValue ds + (c.toNat - '0'.toNat) := by
  simp only [decimalValue, List.foldl_append, List.foldl_cons, List.foldl_nil]

theorem toDigits_isDigit (n : Nat) : ∀ c ∈ Nat.toDigits 10 n, c.isDigit = true := by
  induction n using Nat.strong_induction_on with
  | _ n ih =>
    rw [toDigits_ten]
    intro c hc
    rcases List.mem_append.mp hc with hc | hc
    · split at hc
      · simp at hc
      · exact ih _ (by omega) c hc
    · rw [List.mem_singleton.mp hc]
      exact isDigit_digitChar _ (Nat.mod_lt _ (by omega))

theorem decimalValue_toDigits (n : Nat) : decimalValue (Nat.toDigits 10 n) = n := by
  induction n using Nat.strong_induction_on with
  | _ n ih =>
    rw [toDigits_ten, decimalValue_append_singleton, digitChar_value _ (Nat.mod_lt _ (by omega))]
    split
    · simp [decimalValue]; omega
    · rw [ih _ (by omega)]; omega

/-! ## What `parseInput` reads -/

theorem afterDollar_append {pre : List Char} (hpre : '$' ∉ pre) (rest : List Char) :
    afterDollar (pre ++ '$' :: rest) = some rest := by
  induction pre with
  | nil => simp [afterDollar]
  | cons c pre ih =>
    simp only [List.mem_cons, not_or] at hpre
    simp [afterDollar, Ne.symm hpre.1, ih hpre.2]

theorem afterDollar_eq_some {l rest : List Char} (h : afterDollar l = some rest) :
    ∃ pre, '$' ∉ pre ∧ l = pre ++ '$' :: rest := by
  induction l with
  | nil => cases h
  | cons c l ih =>
    rw [afterDollar] at h
    split at h
    · next hc => exact ⟨[], List.not_mem_nil _, by rw [hc, Option.some.inj h]; rfl⟩
    · next hc =>
      obtain ⟨pre, hpre, rfl⟩ := ih h
      exact ⟨c :: pre, by simp [hpre, Ne.symm hc], rfl⟩

theorem isCSpace_of_isDigit {c : Char} (h : c.isDigit = true) : isCSpace c = false := by
  simp only [Char.isDigit, Bool.and_eq_true, decide_eq_true_eq] at h
  simp only [isCSpace, Bool.or_eq_false_iff, decide_eq_false_iff_not]
  refine ⟨⟨⟨⟨⟨?_, ?_⟩, ?_⟩, ?_⟩, ?_⟩, ?_⟩ <;> rintro rfl <;> simp at h

theorem splitSign_spec (l : List Char) : ∃ sign, l = sign ++ (splitSign l).2 ∧
    (sign = [] ∧ (splitSign l).1 = false ∨ sign = ['+'] ∧ (splitSign l).1 = false ∨
      sign = ['-'] ∧ (splitSign l).1 = true) := by
  unfold splitSign
  split
  · exact ⟨['-'], rfl, by simp⟩
  · exact ⟨['+'], rfl, by simp⟩
  · exact ⟨[], rfl, by simp⟩

theorem splitSign_of_isDigit {c : Char} (h : c.isDigit = true) (r : List Char) :
    splitSign (c :: r) = (false, c :: r) := by
  have h1 : c ≠ '-' := by rintro rfl; simp at h
  have h2 : c ≠ '+' := by rintro rfl; simp at h
  simp [splitSign, h1, h2]

theorem takeWhile_of_head_false {p : Char → Bool} {l : List Char}
    (h : ∀ c ∈ l.head?, p c = false) : l.takeWhile p = [] := by
  cases l <;> simp_all

theorem head_dropWhile_false (p : Char → Bool) (l : List Char) :
    ∀ c ∈ (l.dropWhile p).head?, p c = false := fun c hc => by
  simpa [Option.mem_def.mp hc] using List.head?_dropWhile_not p l

/-- What `ss >> ret` reads from `s` into an `int`: white space, an optional sign and the
longest run of decimal digits after it, whose signed value `v` fits in an `int`. -/
def ReadsInt (s : List Char) (v : Int) : Prop :=
  ∃ ws sign ds tail, s = ws ++ sign ++ ds ++ tail ∧ (∀ c ∈ ws, isCSpace c = true) ∧
    (sign = [] ∨ sign = ['+'] ∨ sign = ['-']) ∧ ds ≠ [] ∧ (∀ c ∈ ds, c.isDigit = true) ∧
    (∀ c ∈ tail.head?, c.isDigit = false) ∧
    v = (if sign = ['-'] then -(decimalValue ds : Int) else decimalValue ds) ∧
    -2 ^ 31 ≤ v ∧ v < 2 ^ 31

theorem splitSign_dropWhile {sign ds tail : List Char}
    (hsign : sign = [] ∨ sign = ['+'] ∨ sign = ['-']) (hds : ds ≠ [])
    (hdig : ∀ c ∈ ds, c.isDigit = true) :
    splitSign ((sign ++ ds ++ tail).dropWhile isCSpace) = (decide (sign = ['-']), ds ++ tail) := by
  obtain ⟨d, ds, rfl⟩ := List.exists_cons_of_ne_nil hds
  have hd := hdig d (List.mem_cons_self _ _)
  rcases hsign with rfl | rfl | rfl
  · simp [List.dropWhile_cons, isCSpace_of_isDigit hd, splitSign_of_isDigit hd]
  · rfl
  · rfl

/-- `extractInt` succeeds exactly on what `ReadsInt` describes. -/
theorem extractInt_eq_some_iff (s : List Char) (v : Int) :
    extractInt s = some v ↔ ReadsInt s v := by
  constructor
  · intro h
    obtain ⟨sign, hsplit, hsign⟩ := splitSign_spec (s.dropWhile isCSpace)
    by_cases h1 : ((splitSign (s.dropWhile isCSpace)).2.takeWhile Char.isDigit) = []
    · simp [extractInt, h1] at h
    simp only [extractInt, if_neg h1, Option.ite_none_right_eq_some, Option.some.injEq] at h
    obtain ⟨h2, rfl⟩ := h
    refine ⟨s.takeWhile isCSpace, sign, _,
      (splitSign (s.dropWhile isCSpace)).2.dropWhile Char.isDigit, ?_,
      fun c hc => List.mem_takeWhile_imp hc, ?_, h1, fun c hc => List.mem_takeWhile_imp hc,
      head_dropWhile_false _ _, ?_, h2⟩
    · rw [List.append_assoc, List.takeWhile_append_dropWhile, List.append_assoc, ← hsplit,
        List.takeWhile_append_dropWhile]
    · rcases hsign with ⟨rfl, -⟩ | ⟨rfl, -⟩ | ⟨rfl, -⟩ <;> simp
    · rcases hsign with ⟨rfl, h⟩ | ⟨rfl, h⟩ | ⟨rfl, h⟩ <;> simp [h]
  · rintro ⟨ws, sign, ds, tail, rfl, hws, hsign, hds, hdig, htail, rfl, hlo, hhi⟩
    simp only [extractInt, List.append_assoc, List.dropWhile_append_of_pos hws]
    rw [← List.append_assoc, splitSign_dropWhile hsign hds hdig]
    simp only [List.takeWhile_append_of_pos hdig, takeWhile_of_head_false htail, List.append_nil,
      if_neg hds]
    rcases hsign with rfl | rfl | rfl <;> simp_all

theorem parseInput_numeral (p t : String) (n : Int) (hp : '$' ∉ p.toList) (h0 : 0 ≤ n)
    (h1 : n ≤ 2 ^ 31 - 1) (ht : ∀ c ∈ t.toList.head?, c.isDigit = false) :
    parseInput (p ++ "$" ++ toString n ++ t) = n := by
  obtain ⟨k, rfl⟩ := Int.eq_ofNat_of_zero_le h0
  have hstr : (p ++ "$" ++ toString (k : Int) ++ t).toList =
      p.toList ++ '$' :: (Nat.toDigits 10 k ++ t.toList) := by
    simp only [String.toList, String.data_append, List.append_assoc]; rfl
  have hread : ReadsInt (Nat.toDigits 10 k ++ t.toList) k :=
    ⟨[], [], Nat.toDigits 10 k, t.toList, rfl, by simp, .inl rfl, toDigits_ne_nil k,
      toDigits_isDigit k, ht, by rw [if_neg (by simp), decimalValue_toDigits], by omega, by omega⟩
  rw [parseInput, hstr, afterDollar_append hp _]
  dsimp only
  rw [(extractInt_eq_some_iff _ _).mpr hread]
  rfl

theorem parseInput_reads (s : String) (m : Int) (h : parseInput s = m) (hm : m ≠ -1) :
    ∃ pre rest, '$' ∉ pre ∧ s.toList = pre ++ '$' :: rest ∧ ReadsInt rest m := by
  rw [parseInput] at h
  split at h
  · exact absurd h.symm hm
  · rename_i rest hrest
    cases he : extractInt rest with
    | none => rw [he] at h; exact absurd h.symm hm
    | some v =>
      rw [he] at h
      obtain ⟨pre, hpre, hs⟩ := afterDollar_eq_some hrest
      exact ⟨pre, rest, hpre, hs, h ▸ (extractInt_eq_some_iff _ _).mp he⟩

theorem parseInput_eq_iff (s : String) {v : Int} (hv : v ≠ -1) :
    parseInput s = v ↔ ∃ pre rest, '$' ∉ pre ∧ s.toList = pre ++ '$' :: rest ∧ ReadsInt rest v := by
  refine ⟨fun h => parseInput_reads s v h hv, ?_⟩
  rintro ⟨pre, rest, hpre, hs, hread⟩
  rw [parseInput, hs, afterDollar_append hpre]
  dsimp only
  rw [(extractInt_eq_some_iff _ _).mpr hread]
  rfl

/-- `parseInput` reads back every non-negative `int` written after the first `$`, and a result
other than `-1` is always such an `int`, with its white space, sign and digits. -/
theorem parseInput_dollarInt :
    (∀ (p : String) (n : Int) (t : String), '$' ∉ p.toList → 0 ≤ n → n ≤ 2 ^ 31 - 1 →
        (∀ c ∈ t.toList.head?, c.isDigit = false) → parseInput (p ++ "$" ++ toString n ++ t) = n) ∧
      ∀ (s : String) (m : Int), parseInput s = m → m ≠ -1 →
        ∃ pre rest, '$' ∉ pre ∧ s.toList = pre ++ '$' :: rest ∧ ReadsInt rest m :=
  ⟨fun p n t => parseInput_numeral p t n, parseInput_reads⟩

example : parseInput "col$ -2147483648x" = -2147483648 := by decide

example : parseInput "$2147483648" = -1 := by decide

/-- The exceptions `Project::init` throws. -/
inductive ProjectError
  | invalidParameter
  | illegalSchemaDeclarationException
  deriving DecidableEq, Repr

namespace Project

/-- `Project::init` over a source schema of `columns` columns: each entry of the `projection`
setting in turn is parsed, rejected when negative or past the last column, and appended to
`projlist`. -/
def init (columns : Nat) : List String → List Int → Except ProjectError (List Int)
  | [], projlist => .ok projlist
  | p :: ps, projlist =>
    if parseInput p ≤ -1 then .error .invalidParameter
    else if (parseInput p).toNat ≥ columns then .error .illegalSchemaDeclarationException
    else init columns ps (projlist ++ [parseInput p])

/-- `Schema::get(i)` or `Schema::calcOffset(tuple, i)` on the columns `xs`. -/
def column {α : Type} (xs : List α) (i : Int) : Option α := if i < 0 then none else xs[i.toNat]?

/-- `Project::mapinit`: the output schema adds `srcschema.get(projlist[i])` for each `i`. -/
def mapinit {α : Type} (srcschema : List α) (projlist : List Int) : Option (List α) :=
  projlist.mapM (column srcschema)

/-- `Project::map`: the `schema.writeData(dest, i, srcschema.calcOffset(tuple, projlist[i]))`
calls, as pairs of the output column and the value written. -/
def map {β : Type} (tuple : List β) (projlist : List Int) : Option (List (Nat × β)) :=
  (projlist.mapM (column tuple)).map List.enum

theorem init_appends_inRange (columns : Nat) :
    ∀ (projection : List String) (projlist result : List Int),
      init columns projection projlist = .ok result →
        ∃ added, result = projlist ++ added ∧ ∀ p ∈ added, 0 ≤ p ∧ p < columns := by
  intro projection
  induction projection with
  | nil => intro projlist result h; cases h; exact ⟨[], by simp, by simp⟩
  | cons p ps ih =>
    intro projlist result h
    simp only [init] at h
    split_ifs at h with h1 h2
    obtain ⟨added, rfl, hadded⟩ := ih _ _ h
    refine ⟨parseInput p :: added, by simp, ?_⟩
    intro q hq
    rcases List.mem_cons.mp hq with rfl | hq
    · omega
    · exact hadded q hq

theorem mapM_column_of_inRange {α : Type} (xs : List α) :
    ∀ projlist : List Int, (∀ p ∈ projlist, 0 ≤ p ∧ p < xs.length) →
      ∃ out, projlist.mapM (column xs) = some out ∧ out.length = projlist.length ∧
        ∀ (i : Nat) (hi : i < out.length), some out[i] = column xs projlist[i]! := by
  intro projlist
  induction projlist with
  | nil => intro; exact ⟨[], rfl, rfl, fun i hi => by simp at hi⟩
  | cons p ps ih =>
    intro h
    obtain ⟨out, hout, hlen, hget⟩ := ih fun q hq => h q (List.mem_cons_of_mem _ hq)
    have hp := h p (List.mem_cons_self _ _)
    have hcol : column xs p = some xs[p.toNat] := by
      simp [column, show ¬ p < 0 by omega, List.getElem?_eq_getElem (show p.toNat < xs.length by omega)]
    refine ⟨xs[p.toNat] :: out, by rw [List.mapM_cons, hcol, hout]; rfl, by simp [hlen], fun i hi => ?_⟩
    cases i with
    | zero => simp [hcol]
    | succ i => simpa using hget i (by simpa using hi)

/-- A successful `init` leaves only in-range columns, so `mapinit` reads each `projlist[i]` of the
source schema and `map` writes exactly the output columns `0 .. projlist.size() - 1`. -/
theorem init_columns_inRange {α β : Type} (projection : List String) (srcschema : List α)
    (projlist : List Int) (hinit : init srcschema.length projection [] = .ok projlist) :
    (∀ p ∈ projlist, 0 ≤ p ∧ p < srcschema.length) ∧
      (∃ schema, mapinit srcschema projlist = some schema ∧ schema.length = projlist.length ∧
        ∀ (i : Nat) (hi : i < schema.length), some schema[i] = column srcschema projlist[i]!) ∧
      ∀ tuple : List β, tuple.length = srcschema.length →
        ∃ writes, map tuple projlist = some writes ∧ writes.map Prod.fst = List.range projlist.length := by
  obtain ⟨added, rfl, hadded⟩ := init_appends_inRange _ _ _ _ hinit
  refine ⟨hadded, mapM_column_of_inRange _ _ hadded, fun tuple htuple => ?_⟩
  obtain ⟨out, hout, hlen, -⟩ := mapM_column_of_inRange tuple projlist (htuple ▸ hadded)
  exact ⟨out.enum, by rw [map, hout]; rfl, by rw [List.enum_map_fst, hlen]⟩

theorem init_columns_inRange_two : init 2 ["$1", " $ +0"] [] = .ok [1, 0] ∧
    (∀ p ∈ [(1 : Int), 0], 0 ≤ p ∧ p < ["a", "b"].length) ∧
      (∃ schema, mapinit ["a", "b"] [1, 0] = some schema ∧ schema.length = [(1 : Int), 0].length ∧
        ∀ (i : Nat) (hi : i < schema.length), some schema[i] = column ["a", "b"] [(1 : Int), 0][i]!) ∧
      ∀ tuple : List Nat, tuple.length = ["a", "b"].length →
        ∃ writes, map tuple [1, 0] = some writes ∧
          writes.map Prod.fst = List.range [(1 : Int), 0].length :=
  ⟨rfl, init_columns_inRange (β := Nat) ["$1", " $ +0"] ["a", "b"] [1, 0] rfl⟩

theorem init_eq_ok_iff (columns : Nat) :
    ∀ (projection : List String) (projlist result : List Int),
      init columns projection projlist = .ok result ↔
        ∃ vs, result = projlist ++ vs ∧
          List.Forall₂ (fun p v => parseInput p = v ∧ 0 ≤ v ∧ v < columns) projection vs := by
  intro projection
  induction projection with
  | nil => intro projlist result; simp [init, List.forall₂_nil_left_iff, eq_comm]
  | cons p ps ih =>
    intro projlist result
    simp only [init, List.forall₂_cons_left_iff]
    split_ifs with h1 h2
    · simp only [reduceCtorEq, false_iff, not_exists, not_and]
      intro _ _ v _ hv; omega
    · simp only [reduceCtorEq, false_iff, not_exists, not_and]
      intro _ _ v _ hv; omega
    · rw [ih]
      constructor
      · rintro ⟨vs, rfl, hvs⟩
        exact ⟨parseInput p :: vs, by simp, _, vs, ⟨rfl, by omega, by omega⟩, hvs, rfl⟩
      · rintro ⟨_, rfl, v, vs, ⟨rfl, -⟩, hvs, rfl⟩
        exact ⟨vs, by simp, hvs⟩

theorem init_eq_error (columns : Nat) :
    ∀ (projection : List String) (projlist : List Int) (e : ProjectError),
      init columns projection projlist = .error e →
        ∃ good bad rest, projection = good ++ bad :: rest ∧
          (∀ p ∈ good, 0 ≤ parseInput p ∧ parseInput p < columns) ∧
          (parseInput bad ≤ -1 ∧ e = .invalidParameter ∨ 0 ≤ parseInput bad ∧
            columns ≤ parseInput bad ∧ e = .illegalSchemaDeclarationException) := by
  intro projection
  induction projection with
  | nil => intro projlist e h; cases h
  | cons p ps ih =>
    intro projlist e h
    simp only [init] at h
    split_ifs at h with h1 h2
    · cases h; exact ⟨[], p, ps, rfl, by simp, .inl ⟨h1, rfl⟩⟩
    · cases h; exact ⟨[], p, ps, rfl, by simp, .inr ⟨by omega, by omega, rfl⟩⟩
    · obtain ⟨good, bad, rest, rfl, hgood, hbad⟩ := ih _ _ h
      refine ⟨p :: good, bad, rest, rfl, ?_, hbad⟩
      simp only [List.mem_cons, forall_eq_or_imp]
      exact ⟨⟨by omega, by omega⟩, hgood⟩

/-- `Project::init` accepts exactly the `projection` settings whose every entry reads, after its
first `$`, as a column of the source schema, and `projlist` is then those columns in order.
Otherwise it throws at the first entry that does not: `InvalidParameter` when `parseInput`
gives `-1` or less, `IllegalSchemaDeclarationException` when it gives a column past the last. -/
theorem init_spec (columns : Nat) (projection : List String) :
    (∀ projlist, init columns projection [] = .ok projlist ↔
      List.Forall₂ (fun p v => (∃ pre rest, '$' ∉ pre ∧ p.toList = pre ++ '$' :: rest ∧
        ReadsInt rest v) ∧ 0 ≤ v ∧ v < columns) projection projlist) ∧
      ∀ e, init columns projection [] = .error e →
        ∃ good bad rest, projection = good ++ bad :: rest ∧
          (∀ p ∈ good, 0 ≤ parseInput p ∧ parseInput p < columns) ∧
          (parseInput bad ≤ -1 ∧ e = .invalidParameter ∨ 0 ≤ parseInput bad ∧
            columns ≤ parseInput bad ∧ e = .illegalSchemaDeclarationException) := by
  have hR : ∀ p v, (parseInput p = v ∧ 0 ≤ v ∧ v < columns) ↔
      ((∃ pre rest, '$' ∉ pre ∧ p.toList = pre ++ '$' :: rest ∧ ReadsInt rest v) ∧
        0 ≤ v ∧ v < columns) := fun p v =>
    and_congr_left fun h => parseInput_eq_iff p (by omega)
  refine ⟨fun projlist => ?_, init_eq_error columns projection []⟩
  rw [init_eq_ok_iff]
  simp only [List.nil_append, exists_eq_left']
  exact ⟨fun h => h.imp fun p v => (hR p v).mp, fun h => h.imp fun p v => (hR p v).mpr⟩

/-! ## The output tuple has the output schema -/

theorem column_rel {α β : Type} {R : α → β → Prop} {xs : List α} {ys : List β}
    (h : List.Forall₂ R xs ys) (i : Int) : Option.Rel R (column xs i) (column ys i) := by
  obtain ⟨hlen, hget⟩ := List.forall₂_iff_get.mp h
  unfold column
  split
  · exact .none
  · by_cases hi : i.toNat < xs.length
    · rw [List.getElem?_eq_getElem hi, List.getElem?_eq_getElem (hlen ▸ hi)]
      exact .some (hget _ hi (hlen ▸ hi))
    · rw [List.getElem?_eq_none (by omega), List.getElem?_eq_none (by omega)]
      exact .none

theorem mapM_column_rel {α β : Type} {R : α → β → Prop} {xs : List α} {ys : List β}
    (h : List.Forall₂ R xs ys) (projlist : List Int) :
    Option.Rel (List.Forall₂ R) (projlist.mapM (column xs)) (projlist.mapM (column ys)) := by
  induction projlist with
  | nil => exact .some .nil
  | cons p ps ih =>
    rw [List.mapM_cons, List.mapM_cons]
    have hp := column_rel h p
    generalize column xs p = a, column ys p = b at hp ⊢
    generalize ps.mapM (column xs) = as, ps.mapM (column ys) = bs at ih ⊢
    cases hp with
    | none => exact .none
    | some hab =>
      cases ih with
      | none => exact .none
      | some hs => exact .some (.cons hab hs)

/-- `map` writes into each output column a value of the type `mapinit` gave that column. For
any relation `R` between a column description and the values it holds: on a tuple that conforms
to the source schema, `map` succeeds exactly when `mapinit` does, writes the output columns
`0 .. projlist.size() - 1` in order, and the values it writes conform to the output schema. -/
theorem map_conforms {α β : Type} (R : α → β → Prop) {srcschema : List α} {tuple : List β}
    (htuple : List.Forall₂ R srcschema tuple) (projlist : List Int) :
    Option.Rel (fun schema writes => writes.map Prod.fst = List.range schema.length ∧
        List.Forall₂ R schema (writes.map Prod.snd))
      (mapinit srcschema projlist) (map tuple projlist) := by
  unfold mapinit map
  have hr := mapM_column_rel htuple projlist
  generalize projlist.mapM (column srcschema) = a, projlist.mapM (column tuple) = b at hr ⊢
  cases hr with
  | none => exact .none
  | some hr =>
    exact .some ⟨by rw [List.enum_map_fst, hr.length_eq], by rw [List.enum_map_snd]; exact hr⟩

theorem map_conforms_flag :
    List.Forall₂ (fun col v => col = "flag" → v ≤ 1) ["id", "flag"] [(7 : Int), 1] ∧
      Option.Rel (fun schema writes => writes.map Prod.fst = List.range schema.length ∧
          List.Forall₂ (fun col v => col = "flag" → v ≤ 1) schema (writes.map Prod.snd))
        (mapinit ["id", "flag"] [1, 0, 1]) (map [(7 : Int), 1] [1, 0, 1]) :=
  have h : List.Forall₂ (fun col v => col = "flag" → v ≤ 1) ["id", "flag"] [(7 : Int), 1] :=
    .cons (by decide) (.cons (by decide) .nil)
  ⟨h, map_conforms _ h _⟩

end Project

end ImpalaBackend
