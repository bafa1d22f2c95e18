import UnifiAlerts.Lib.Comp
import UnifiAlerts.Lib.Dict
import UnifiAlerts.Models

/-!
# Event keys and their categories

The prefix table is scanned in its order, but no order matters: two
prefixes of one key are prefixes of each other, and the table gives such
a pair one category (`prefixes_coherent`). A key of the exact table keeps
its category under a numeric suffix, because none of them ends with a
digit itself. The two stages in which a v2 event is classified come to
the one call with both arguments (`fromSystemLogEvent_category`).
-/

namespace UnifiAlerts

open Py Lib

/-! ## The prefix table -/

theorem startsWith_iff {s p : String} : startsWith s p = true ↔ p.toList <+: s.toList :=
  List.isPrefixOf_iff_prefix

/-- The code points of a string: numbers are compared faster than characters. -/
def codes (s : String) : List Nat := s.toList.map Char.toNat

/-- One of the two lists begins the other. -/
def nested : List Nat → List Nat → Bool
  | [], _ => true
  | _, [] => true
  | a :: as, b :: bs => Nat.beq a b && nested as bs

theorem nested_of_common : ∀ {as bs cs : List Nat}, as <+: cs → bs <+: cs → nested as bs = true
  | [], _, _, _, _ => by simp [nested]
  | _ :: _, [], _, _, _ => rfl
  | a :: as, b :: bs, [], h, _ => absurd (List.prefix_nil.mp h) (List.cons_ne_nil a as)
  | a :: as, b :: bs, c :: cs, h, h' => by
      obtain ⟨rfl, has⟩ := List.cons_prefix_cons.mp h
      obtain ⟨rfl, hbs⟩ := List.cons_prefix_cons.mp h'
      simp [nested, nested_of_common has hbs]

/-- No entry is empty, and none is nested with one of another category. -/
def separated : List (List Nat × Category) → Bool
  | [] => true
  | p :: rest => !p.1.isEmpty && (rest.all fun q => !nested p.1 q.1 || p.2 == q.2) &&
      separated rest

theorem separated_spec {codes : List Nat} : ∀ {table : List (List Nat × Category)},
    separated table = true → ∀ p ∈ table, p.1 ≠ [] ∧
      ∀ q ∈ table, p.1 <+: codes → q.1 <+: codes → p.2 = q.2
  | [], _, p, hp => nomatch hp
  | head :: rest, h, p, hp => by
      simp only [separated, Bool.and_eq_true, List.all_eq_true, Bool.or_eq_true, beq_iff_eq,
        Bool.not_eq_true'] at h
      obtain ⟨⟨hne, hhead⟩, hrest⟩ := h
      have ih := @separated_spec codes rest hrest
      have hagree : ∀ q ∈ rest, head.1 <+: codes → q.1 <+: codes → head.2 = q.2 := by
        intro q hq hhd hqc
        rcases hhead q hq with hno | heq
        · rw [nested_of_common hhd hqc] at hno
          cases hno
        · exact heq
      rcases List.mem_cons.mp hp with rfl | hlater
      · refine ⟨by simpa using hne, fun q hq hpc hqc => ?_⟩
        rcases List.mem_cons.mp hq with rfl | hq
        · rfl
        · exact hagree q hq hpc hqc
      · refine ⟨(ih p hlater).1, fun q hq hpc hqc => ?_⟩
        rcases List.mem_cons.mp hq with rfl | hq
        · exact (hagree p hlater hqc hpc).symm
        · exact (ih p hlater).2 q hq hpc hqc

theorem prefix_table_separated :
    separated (unifiKeyToCategory.map fun p => (codes p.1, p.2)) = true := by
  decide +kernel

theorem startsWith_codes {s p : String} (h : startsWith s p = true) : codes p <+: codes s :=
  (startsWith_iff.mp h).map _

/-- Two prefixes of one key are nested, and so of one category. -/
theorem prefixes_coherent (key : String) : Dict.Coherent (startsWith key) unifiKeyToCategory := by
  intro p hp q hq hkp hkq
  exact (separated_spec prefix_table_separated _ (List.mem_map_of_mem hp)).2 _
    (List.mem_map_of_mem hq) (startsWith_codes hkp) (startsWith_codes hkq)

theorem prefix_ne_empty {p : String × Category} (hp : p ∈ unifiKeyToCategory) : p.1 ≠ "" := by
  intro heq
  refine (@separated_spec [] _ prefix_table_separated _ (List.mem_map_of_mem hp)).1 ?_
  rw [heq]
  rfl

/-! ## Numeric suffixes -/

def IsDigits (digits : String) : Prop :=
  digits ≠ "" ∧ ∀ d ∈ digits.toList, (digitValue d).isSome = true

theorem stripNumericSuffix_digits {digits : String} (h : IsDigits digits) (key : String) :
    stripNumericSuffix (key ++ "_" ++ digits) = key := by
  obtain ⟨hne, hdigits⟩ := h
  have hreverse : (key ++ "_" ++ digits).toList.reverse =
      digits.toList.reverse ++ '_' :: key.toList.reverse := by
    simp [String.toList_append, show "_".toList = ['_'] from rfl]
  have hall : ∀ d ∈ digits.toList.reverse, (digitValue d).isSome = true := fun d hd =>
    hdigits d (List.mem_reverse.mp hd)
  obtain ⟨d, ds, hds⟩ : ∃ d ds, digits.toList.reverse = d :: ds := by
    cases hrev : digits.toList.reverse with
    | nil => exact absurd (String.toList_eq_nil_iff.mp (List.reverse_eq_nil_iff.mp hrev)) hne
    | cons d ds => exact ⟨d, ds, rfl⟩
  rw [hds] at hall
  have hnewline : d ≠ '\n' := fun heq => absurd (hall d List.mem_cons_self) (by rw [heq]; decide)
  have hspan : (d :: ds ++ '_' :: key.toList.reverse).span (fun c => (digitValue c).isSome) =
      (d :: ds, '_' :: key.toList.reverse) := by
    have hstop : (digitValue '_').isSome = false := by decide
    rw [List.span_eq_takeWhile_dropWhile, List.takeWhile_append_of_pos hall,
      List.dropWhile_append_of_pos hall, List.takeWhile_cons_of_neg (by simp [hstop]),
      List.dropWhile_cons_of_neg (by simp [hstop]), List.append_nil]
  have hsplit : (key ++ "_" ++ digits).toList.reverse = d :: (ds ++ '_' :: key.toList.reverse) := by
    rw [hreverse, hds, List.cons_append]
  unfold stripNumericSuffix
  rw [hsplit]
  split
  rename_i body newline hbody
  split at hbody
  · rename_i cs heq
    exact absurd (List.cons.inj heq).1 hnewline
  · obtain ⟨rfl, rfl⟩ := Prod.mk.injEq .. |>.mp hbody
    rw [← List.cons_append, hspan]
    simp

/-- No exact key is empty or ends with a digit. -/
theorem exact_keys_end : ∀ p ∈ systemLogKeyToCategory,
    (p.1.toList.getLast?.map fun d => (digitValue d).isSome) = some false := by
  decide +kernel

theorem lookup_digits {digits : String} (h : IsDigits digits) (key : String) :
    systemLogKeyToCategory.lookup (key ++ "_" ++ digits) = none := by
  obtain ⟨hne, hdigits⟩ := h
  refine List.lookup_eq_none_iff.mpr fun p hp => bne_iff_ne.mpr fun heq => ?_
  obtain ⟨d, hd⟩ : ∃ d, digits.toList.getLast? = some d := by
    cases hlast : digits.toList.getLast? with
    | none => exact absurd (String.toList_eq_nil_iff.mp (List.getLast?_eq_none_iff.mp hlast)) hne
    | some d => exact ⟨d, rfl⟩
  have hend : p.1.toList.getLast? = some d := by
    rw [← heq, String.toList_append, List.getLast?_append, hd]
    rfl
  have hno := exact_keys_end p hp
  rw [hend, Option.map_some, hdigits d (List.mem_of_getLast? hd)] at hno
  cases hno

/-! ## One key -/

/-- Neither table knows the key. -/
def MatchesNeither (key : String) : Prop :=
  (∀ p ∈ systemLogKeyToCategory, p.1 ≠ key ∧ p.1 ≠ stripNumericSuffix key) ∧
    ∀ p ∈ unifiKeyToCategory, startsWith key p.1 = false

/-- The exact table has one entry for each of its keys. -/
theorem exact_lookup : ∀ p ∈ systemLogKeyToCategory,
    systemLogKeyToCategory.lookup p.1 = some p.2 := by
  decide +kernel

theorem lookup_unlisted {k : String} (hk : ∀ p ∈ systemLogKeyToCategory, p.1 ≠ k) :
    systemLogKeyToCategory.lookup k = none :=
  List.lookup_eq_none_iff.mpr fun p hp => by simpa using Ne.symm (hk p hp)

theorem classifyKey_listed {p : String × Category} (hp : p ∈ systemLogKeyToCategory) :
    classifyKey p.1 = some p.2 := by
  unfold classifyKey
  rw [exact_lookup p hp]

/-- A key that the exact table does not know goes on to the prefixes. -/
theorem classifyKey_unlisted {key : String}
    (h : ∀ p ∈ systemLogKeyToCategory, p.1 ≠ key ∧ p.1 ≠ stripNumericSuffix key) :
    classifyKey key = Dict.firstMatch (startsWith key) unifiKeyToCategory := by
  unfold classifyKey
  rw [lookup_unlisted fun p hp => (h p hp).1]
  dsimp only
  rw [lookup_unlisted fun p hp => (h p hp).2, ite_self]
  rfl

theorem classifyKey_suffixed {k digits : String} {c : Category}
    (hk : systemLogKeyToCategory.lookup k = some c) (h : IsDigits digits) :
    classifyKey (k ++ "_" ++ digits) = classifyKey k := by
  have hne : k ≠ k ++ "_" ++ digits := by
    intro heq
    have hnone := lookup_digits h k
    rw [← heq, hk] at hnone
    cases hnone
  unfold classifyKey
  rw [lookup_digits h, stripNumericSuffix_digits h, hk]
  dsimp only
  rw [if_pos (by simpa using hne), hk]

theorem classifyKey_neither {key : String} (h : MatchesNeither key) : classifyKey key = none :=
  (classifyKey_unlisted h.1).trans (Dict.firstMatch_eq_none.mpr h.2)

theorem classifyKey_empty : classifyKey "" = none := by
  refine classifyKey_neither ⟨fun p hp => ?_, fun p hp => ?_⟩
  · have hne : p.1 ≠ "" := by
      intro heq
      have hend := exact_keys_end p hp
      rw [heq] at hend
      cases hend
    exact ⟨hne, hne⟩
  · rw [Bool.eq_false_iff]
    intro h
    refine prefix_ne_empty hp (String.toList_eq_nil_iff.mp ?_)
    exact List.prefix_nil.mp (startsWith_iff.mp h)

theorem classifyEventKey_congr {k k' : String} (h : classifyKey k = classifyKey k') (enum : Json) :
    classifyEventKey (.str k) enum = classifyEventKey (.str k') enum := by
  unfold classifyEventKey
  dsimp only
  rw [h]

theorem classifyEventKey_key {key : String} {c : Category} (h : classifyKey key = some c)
    (enum : Json) : classifyEventKey (.str key) enum = .ok (some c) := by
  unfold classifyEventKey
  dsimp only
  rw [h]

theorem classifyEventKey_enum {key : String} (h : classifyKey key = none) (enum : Json) :
    classifyEventKey (.str key) enum = classifyEnum enum := by
  unfold classifyEventKey
  dsimp only
  rw [h]

/-- The category of a key and an enum as `classify_event_key` returns it. -/
def categoryName (key enum : String) : String :=
  match classifyEventKey (.str key) (.str enum) with
  | .ok (some c) => c.name
  | _ => ""

theorem classifyEventKey_total (key enum : String) :
    ∃ found, classifyEventKey (.str key) (.str enum) = .ok found := by
  unfold classifyEventKey
  dsimp only
  cases classifyKey key with
  | none => exact ⟨_, rfl⟩
  | some c => exact ⟨_, rfl⟩

theorem categoryName_mem (key enum : String) :
    categoryName key enum = "" ∨ categoryName key enum ∈ allCategories.map Category.name := by
  unfold categoryName
  split
  · exact Or.inr (List.mem_map_of_mem (Category.mem_all _))
  · exact Or.inl rfl

/-! ## The two stages -/

theorem fallback_empty : systemLogCategoryFallback.lookup "" = none := by
  have hnamed : ∀ p ∈ systemLogCategoryFallback, p.1.toList.isEmpty = false := by decide +kernel
  refine List.lookup_eq_none_iff.mpr fun p hp => bne_iff_ne.mpr fun heq => ?_
  have hempty := hnamed p hp
  rw [← heq] at hempty
  cases hempty

/-- What a v2 event is classified as; only its message can raise. -/
theorem fromSystemLogEvent_category (text : Text) (now : Instant) (payload : JsonObj)
    (seenKeys : List String) {key enum : String} (hkey : payload.getD "key" (.str "") = .str key)
    (henum : payload.getD "category" (.str "") = .str enum) :
    (UniFiAlert.fromSystemLogEvent text now payload seenKeys).map (fun built => built.1.category) =
      (UniFiAlert.systemLogMessage text payload).map fun _ => categoryName key enum := by
  have hnone : classifyEnum (.str "") = .ok none := congrArg Except.ok fallback_empty
  have hfallback : classifyEnum (.str enum) = .ok (systemLogCategoryFallback.lookup enum) := rfl
  unfold UniFiAlert.fromSystemLogEvent
  dsimp only
  rw [hkey, henum, classifyEventKey_enum classifyKey_empty, hfallback]
  cases UniFiAlert.systemLogMessage text payload with
  | error e => rfl
  | ok message =>
      simp only [categoryName, classifyEventKey, hnone, hfallback, ok_bind]
      cases classifyKey key with
      | some c => rfl
      | none => cases systemLogCategoryFallback.lookup enum <;> rfl

/-- What `classify_event_key` decides, for every key and enum: an exact key has the
category of its entry, and so has, of the other keys, one that begins with a prefix;
matching prefixes agree, in any order of the table; a numeric suffix of an exact key
changes nothing; a key that neither table knows leaves it to the enum; the result is
empty or a category; and the two stages of a v2 event give the same. -/
theorem event_keys_coherent :
    (∀ p ∈ systemLogKeyToCategory, ∀ enum, classifyEventKey (.str p.1) enum = .ok (some p.2)) ∧
    (∀ key, (∀ p ∈ systemLogKeyToCategory, p.1 ≠ key ∧ p.1 ≠ stripNumericSuffix key) →
      ∀ p ∈ unifiKeyToCategory, startsWith key p.1 = true →
        ∀ enum, classifyEventKey (.str key) enum = .ok (some p.2)) ∧
    (∀ key, ∀ p ∈ unifiKeyToCategory, ∀ q ∈ unifiKeyToCategory,
      startsWith key p.1 = true → startsWith key q.1 = true → p.2 = q.2) ∧
    (∀ key table, table.Perm unifiKeyToCategory →
      Dict.firstMatch (startsWith key) table = Dict.firstMatch (startsWith key) unifiKeyToCategory ∧
      ∀ p ∈ table, startsWith key p.1 = true → Dict.firstMatch (startsWith key) table = some p.2) ∧
    (∀ k ∈ systemLogKeyToCategory.map Prod.fst, ∀ digits, IsDigits digits → ∀ enum,
      classifyEventKey (.str (k ++ "_" ++ digits)) enum = classifyEventKey (.str k) enum) ∧
    (∀ key, MatchesNeither key → ∀ enum : String, classifyEventKey (.str key) (.str enum) =
      .ok (systemLogCategoryFallback.lookup enum)) ∧
    (∀ key enum, (∃ found, classifyEventKey (.str key) (.str enum) = .ok found) ∧
      (categoryName key enum = "" ∨ categoryName key enum ∈ allCategories.map Category.name)) ∧
    ∀ (text : Text) (now : Instant) (payload : JsonObj) (seenKeys : List String)
        (key enum : String),
      payload.getD "key" (.str "") = .str key → payload.getD "category" (.str "") = .str enum →
      (UniFiAlert.fromSystemLogEvent text now payload seenKeys).map
          (fun built => built.1.category) =
        (UniFiAlert.systemLogMessage text payload).map fun _ => categoryName key enum := by
  refine ⟨fun p hp enum => classifyEventKey_key (classifyKey_listed hp) enum,
    fun key hkey p hp hstarts enum => ?_, prefixes_coherent, fun key table hperm => ⟨?_, ?_⟩,
    fun k hk digits hdigits enum => ?_, fun key h enum => ?_,
    fun key enum => ⟨classifyEventKey_total key enum, categoryName_mem key enum⟩,
    fun text now payload seenKeys key enum => fromSystemLogEvent_category text now payload seenKeys⟩
  · have hmatch := (prefixes_coherent key).firstMatch hp hstarts
    exact classifyEventKey_key ((classifyKey_unlisted hkey).trans hmatch) enum
  · exact (prefixes_coherent key).firstMatch_perm hperm
  · intro p hp htest
    rw [(prefixes_coherent key).firstMatch_perm hperm]
    exact (prefixes_coherent key).firstMatch (hperm.mem_iff.mp hp) htest
  · obtain ⟨p, hp, rfl⟩ := List.mem_map.mp hk
    exact classifyEventKey_congr (classifyKey_suffixed (exact_lookup p hp) hdigits) enum
  · exact classifyEventKey_enum (classifyKey_neither h) _

end UnifiAlerts
