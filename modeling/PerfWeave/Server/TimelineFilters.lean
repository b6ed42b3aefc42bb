/-
This file models the filter clauses of `perfweave-server/src/api/timeline.rs`: the lists of
numbers and of category names a client sends, and the text that enters the query. The clauses are
compared with what a clause should be: nothing, or the parts of the list that are read, in order
and printed canonically. A list of numbers of which nothing is left still gives a clause, with
nothing between its brackets; the list of categories gives none.
-/

import PerfWeave.Library.Text

namespace PerfWeave

/-! ### Numbers -/

/-- The digits of `str::parse`, with the checked arithmetic of a type below the limit. -/
def parseDigits (limit : Nat) : Nat → Text → Option Nat
  | value, [] => some value
  | value, char :: rest =>
    let next := 10 * value + (char.toNat - '0'.toNat)
    if char.isDigit ∧ next < limit then parseDigits limit next rest else none

/-- A text without the plus sign before it. -/
def withoutPlus : Text → Text
  | '+' :: digits => digits
  | digits => digits

/-- `str::parse` of an unsigned number: a plus sign is taken, and some digit is needed. -/
def parseUnsigned (limit : Nat) (text : Text) : Option Nat :=
  if withoutPlus text = [] then none else parseDigits limit 0 (withoutPlus text)

/-- A text of decimal digits, with or without a plus sign, and its value. -/
def IsDecimal (text : Text) (value : Nat) : Prop :=
  ∃ digits : Text, digits ≠ [] ∧ (∀ digit ∈ digits, digit.isDigit) ∧
    (text = digits ∨ text = '+' :: digits) ∧ Nat.ofDigitChars 10 digits 0 = value

theorem le_ofDigitChars (digits : Text) (init : Nat) : init ≤ Nat.ofDigitChars 10 digits init := by
  rw [Nat.ofDigitChars_eq_ofDigitChars_zero]
  have atLeastOne : 1 ≤ 10 ^ digits.length := Nat.one_le_pow _ _ (by omega)
  nlinarith

theorem parseDigits_eq_some_iff {limit init value : Nat} (digits : Text) (below : init < limit) :
    parseDigits limit init digits = some value ↔
      (∀ digit ∈ digits, digit.isDigit) ∧ Nat.ofDigitChars 10 digits init = value ∧
        value < limit := by
  induction digits generalizing init with
  | nil =>
    simp only [parseDigits, Option.some.injEq, List.not_mem_nil, false_implies, implies_true,
      Nat.ofDigitChars_nil, true_and]
    exact ⟨fun same => ⟨same, same ▸ below⟩, And.left⟩
  | cons char rest inductionHypothesis =>
    rw [parseDigits, Nat.ofDigitChars_cons, List.forall_mem_cons]
    by_cases taken : char.isDigit ∧ 10 * init + (char.toNat - '0'.toNat) < limit
    · rw [if_pos taken, inductionHypothesis taken.2]
      exact ⟨fun ⟨digits, same⟩ => ⟨⟨taken.1, digits⟩, same⟩,
        fun ⟨digits, same⟩ => ⟨digits.2, same⟩⟩
    · rw [if_neg taken]
      refine ⟨fun none => absurd none (Option.some_ne_none _).symm, ?_⟩
      rintro ⟨⟨isDigit, -⟩, same, small⟩
      have atLeast := le_ofDigitChars rest (10 * init + (char.toNat - '0'.toNat))
      exact absurd ⟨isDigit, by omega⟩ taken

theorem isDecimal_iff {text : Text} {value : Nat} :
    IsDecimal text value ↔ withoutPlus text ≠ [] ∧
      (∀ digit ∈ withoutPlus text, digit.isDigit) ∧
      Nat.ofDigitChars 10 (withoutPlus text) 0 = value := by
  constructor
  · rintro ⟨digits, notNil, isDigits, plain | signed, same⟩
    · have noPlus : withoutPlus text = digits := by
        subst plain
        match text, notNil with
        | first :: rest, _ =>
          have isDigit := isDigits first List.mem_cons_self
          rw [withoutPlus]
          intro others isPlus
          cases isPlus
          exact absurd isDigit (by decide)
      exact noPlus.symm ▸ ⟨notNil, isDigits, same⟩
    · exact signed.symm ▸ ⟨notNil, isDigits, same⟩
  · rintro ⟨notNil, isDigits, same⟩
    refine ⟨withoutPlus text, notNil, isDigits, ?_, same⟩
    unfold withoutPlus
    split
    · exact Or.inr rfl
    · exact Or.inl rfl

/-- `str::parse` reads exactly the decimal numbers below the limit. -/
theorem parseUnsigned_eq_some_iff {limit value : Nat} (text : Text) (positive : 0 < limit) :
    parseUnsigned limit text = some value ↔ IsDecimal text value ∧ value < limit := by
  rw [parseUnsigned, isDecimal_iff]
  by_cases empty : withoutPlus text = []
  · simp [empty]
  · rw [if_neg empty, parseDigits_eq_some_iff _ positive, and_iff_right empty, and_assoc]

/-! ### The clauses -/

/-- The clause that a column is in a list. -/
def inClause (column list : Text) : Text :=
  " AND ".toList ++ column ++ " IN (".toList ++ list ++ [')']

theorem inClause_ne_nil (column list : Text) : inClause column list ≠ [] :=
  List.concat_ne_nil _ _

/-- `join(",")`. -/
def joinCommas (items : List Text) : Text := [','].intercalate items

/-- `sanitize_u32_list` and `sanitize_u64_list`: the numbers below the limit among the parts. -/
def sanitizeList (limit : Nat) (text : Text) : Text :=
  joinCommas (((text.splitOn ',').filterMap fun part => parseUnsigned limit (trim part)).map
    (Nat.toDigits 10))

/-- The clause of a list of numbers. -/
def numberFilterSql (column : String) (limit : Nat) : Option Text → Text
  | some text => if text ≠ [] then inClause column.toList (sanitizeList limit text) else []
  | none => []

/-- `gpu_filter_sql`. -/
def gpuFilterSql : Option Text → Text := numberFilterSql "gpu_id" (2 ^ 32)

/-- The filter on metrics in `serve_metric`. -/
def metricFilterSql : Option Text → Text := numberFilterSql "metric_id" (2 ^ 64)

/-- The categories a client may name. -/
def categoryNames : List Text :=
  ["METRIC".toList, "API_CALL".toList, "KERNEL".toList, "MEMCPY".toList, "MEMSET".toList,
    "SYNC".toList, "OVERHEAD".toList, "MARKER".toList]

/-- A category name in the query. -/
def quoted (name : Text) : Text := ['\''] ++ name ++ ['\'']

/-- `to_ascii_uppercase`. -/
def toAsciiUppercase (text : Text) : Text := text.map Char.toUpper

/-- `category_filter_sql`. -/
def categoryFilterSql (column : String) : Option Text → Text
  | some text =>
    if text ≠ [] then
      let allowed := joinCommas ((((text.splitOn ',').map fun part =>
        toAsciiUppercase (trim part)).filter fun name => name ∈ categoryNames).map quoted)
      if allowed = [] then [] else inClause column.toList allowed
    else []
  | none => []

/-! ### What a clause should be -/

/-- The items of a list: what its parts stand for, in order, without those that stand for
nothing. -/
inductive Selected {Item : Type} (accepts : Text → Item → Prop) : List Text → List Item → Prop
  | nil : Selected accepts [] []
  | kept {part : Text} {item : Item} {parts : List Text} {items : List Item} :
      accepts part item → Selected accepts parts items →
      Selected accepts (part :: parts) (item :: items)
  | dropped {part : Text} {parts : List Text} {items : List Item} :
      (∀ item, ¬ accepts part item) → Selected accepts parts items →
      Selected accepts (part :: parts) items

/-- No clause, or the clause of at least one item of the list, in canonical print. -/
def IsFilter {Item : Type} (accepts : Text → Item → Prop) (print : Item → Text) (column : String)
    (value : Option Text) (clause : Text) : Prop :=
  clause = [] ∨ ∃ text items, value = some text ∧ Selected accepts (text.splitOn ',') items ∧
    items ≠ [] ∧ clause = inClause column.toList (joinCommas (items.map print))

/-- A part that is a decimal number below the limit. -/
def IsNumber (limit : Nat) (part : Text) (number : Nat) : Prop :=
  IsDecimal (trim part) number ∧ number < limit

/-- A part that names a category, in capitals or not. -/
def IsCategoryName (part name : Text) : Prop :=
  name ∈ categoryNames ∧ toAsciiUppercase (trim part) = name

/-- A list of numbers that gives a clause has one to put into it. -/
def HasNumber (limit : Nat) (value : Option Text) : Prop :=
  ∀ text, value = some text → text ≠ [] →
    ∃ part ∈ text.splitOn ',', ∃ number, IsNumber limit part number

theorem selected_iff {Item : Type} {accepts : Text → Item → Prop} {read : Text → Option Item}
    (reads : ∀ part item, read part = some item ↔ accepts part item) (parts : List Text)
    (items : List Item) : Selected accepts parts items ↔ items = parts.filterMap read := by
  constructor
  · intro selected
    induction selected with
    | nil => rfl
    | kept accepted _ inductionHypothesis =>
      rw [List.filterMap_cons_some ((reads _ _).mpr accepted), inductionHypothesis]
    | @dropped part _ _ rejected _ inductionHypothesis =>
      have unread : read part = none := Option.eq_none_iff_forall_ne_some.mpr fun item isRead =>
        rejected item ((reads _ _).mp isRead)
      rw [List.filterMap_cons_none unread, inductionHypothesis]
  · rintro rfl
    induction parts with
    | nil => exact .nil
    | cons part rest inductionHypothesis =>
      cases isRead : read part with
      | none =>
        rw [List.filterMap_cons_none isRead]
        refine .dropped (fun item accepted => ?_) inductionHypothesis
        exact Option.some_ne_none item (((reads _ _).mpr accepted).symm.trans isRead)
      | some item =>
        rw [List.filterMap_cons_some isRead]
        exact .kept ((reads _ _).mp isRead) inductionHypothesis

/-- Something is left of a list exactly when one of its parts stands for something. -/
theorem filterMap_ne_nil_iff {Item : Type} {accepts : Text → Item → Prop}
    {read : Text → Option Item} (reads : ∀ part item, read part = some item ↔ accepts part item)
    (parts : List Text) :
    parts.filterMap read ≠ [] ↔ ∃ part ∈ parts, ∃ item, accepts part item := by
  constructor
  · intro notNil
    obtain ⟨item, member⟩ := List.exists_mem_of_ne_nil _ notNil
    obtain ⟨part, partMember, isRead⟩ := List.mem_filterMap.mp member
    exact ⟨part, partMember, item, (reads part item).mp isRead⟩
  · rintro ⟨part, partMember, item, accepted⟩
    exact List.ne_nil_of_mem
      (List.mem_filterMap.mpr ⟨part, partMember, (reads part item).mpr accepted⟩)

/-- A list of numbers is filtered as it should be exactly when something is left of it. -/
theorem numberFilterSql_isFilter_iff {limit : Nat} (positive : 0 < limit) (column : String)
    (value : Option Text) :
    IsFilter (IsNumber limit) (Nat.toDigits 10) column value (numberFilterSql column limit value) ↔
      HasNumber limit value := by
  have reads : ∀ part number, parseUnsigned limit (trim part) = some number ↔
      IsNumber limit part number := fun part number => parseUnsigned_eq_some_iff _ positive
  constructor
  · rintro (isNil | ⟨text, items, rfl, selected, notNil, -⟩) other isText notEmpty
    · rw [isText, numberFilterSql, if_pos notEmpty] at isNil
      exact absurd isNil (inClause_ne_nil _ _)
    · obtain rfl := Option.some.inj isText
      rw [← filterMap_ne_nil_iff reads, ← (selected_iff reads _ _).mp selected]
      exact notNil
  · intro hasNumber
    cases value with
    | none => exact Or.inl rfl
    | some text =>
      by_cases empty : text = []
      · exact Or.inl (by rw [numberFilterSql, if_neg (not_not.mpr empty)])
      · have left := (filterMap_ne_nil_iff reads _).mpr (hasNumber text rfl empty)
        refine Or.inr ⟨text, _, rfl, (selected_iff reads _ _).mpr rfl, left, ?_⟩
        rw [numberFilterSql, if_pos empty, sanitizeList]

theorem selected_categoryNames (parts : List Text) :
    Selected IsCategoryName parts ((parts.map fun part => toAsciiUppercase (trim part)).filter
      fun name => name ∈ categoryNames) := by
  induction parts with
  | nil => exact .nil
  | cons part rest inductionHypothesis =>
    by_cases named : toAsciiUppercase (trim part) ∈ categoryNames
    · rw [List.map_cons, List.filter_cons_of_pos (by simpa using named)]
      exact .kept ⟨named, rfl⟩ inductionHypothesis
    · rw [List.map_cons, List.filter_cons_of_neg (by simpa using named)]
      exact .dropped (fun name isName => named (isName.2 ▸ isName.1)) inductionHypothesis

/-- A list of categories is always filtered as it should be. -/
theorem categoryFilterSql_isFilter (column : String) (value : Option Text) :
    IsFilter IsCategoryName quoted column value (categoryFilterSql column value) := by
  cases value with
  | none => exact Or.inl rfl
  | some text =>
    rw [categoryFilterSql]
    split
    · generalize named : (List.filter _ _ : List Text) = names
      have selected : Selected IsCategoryName (text.splitOn ',') names :=
        named ▸ selected_categoryNames (text.splitOn ',')
      dsimp only
      split
      · exact Or.inl rfl
      · next notNil =>
        refine Or.inr ⟨text, names, rfl, selected, ?_, rfl⟩
        rintro rfl
        exact notNil rfl
    · exact Or.inl rfl

/-- The clauses are well formed exactly when each list of numbers that is given has a part that is
one: the list of categories has no such condition. -/
theorem filters_isFilter_iff (gpus categories metricIds : Option Text) (column : String) :
    (IsFilter (IsNumber (2 ^ 32)) (Nat.toDigits 10) "gpu_id" gpus (gpuFilterSql gpus) ∧
      IsFilter IsCategoryName quoted column categories (categoryFilterSql column categories) ∧
      IsFilter (IsNumber (2 ^ 64)) (Nat.toDigits 10) "metric_id" metricIds
        (metricFilterSql metricIds)) ↔
      HasNumber (2 ^ 32) gpus ∧ HasNumber (2 ^ 64) metricIds := by
  have gpuFilter := @numberFilterSql_isFilter_iff (2 ^ 32) (by omega) "gpu_id" gpus
  have metricFilter := @numberFilterSql_isFilter_iff (2 ^ 64) (by omega) "metric_id" metricIds
  rw [gpuFilterSql, metricFilterSql, gpuFilter, metricFilter,
    and_iff_right (categoryFilterSql_isFilter column categories)]

example : gpuFilterSql (some " +07,x,,4294967296,3".toList) = " AND gpu_id IN (7,3)".toList := by
  decide

/-- A list without any number leaves nothing between the brackets. -/
theorem exists_empty_in_clause :
    ∃ gpus : Option Text, gpuFilterSql gpus = " AND gpu_id IN ()".toList ∧
      ¬ IsFilter (IsNumber (2 ^ 32)) (Nat.toDigits 10) "gpu_id" gpus (gpuFilterSql gpus) := by
  refine ⟨some "abc".toList, by decide, ?_⟩
  rintro (isNil | ⟨text, items, isText, selected, notNil, -⟩)
  · exact absurd isNil (inClause_ne_nil _ _)
  · obtain rfl := Option.some.inj isText
    have reads := fun part number =>
      @parseUnsigned_eq_some_iff (2 ^ 32) number (trim part) (by omega)
    rw [(selected_iff reads _ _).mp selected] at notNil
    exact notNil (by decide)

end PerfWeave
