import Mathlib.Data.List.Basic

/-!
# Texts made of a free part and a word

An identifier is often a free text next to a word of a fixed vocabulary,
with a separator between them. When no word of the vocabulary ends with
the separator and another word (`SuffixFree`), the text `s` and the word
`v` are determined by `s ++ sep :: v`, whatever separators `s` contains;
`PrefixFree` is the same for a word in front.

Separators inside the free text are the difficulty: `a_b` with the word
`c` and `a` with the word `b_c` make one text. What rules that out is a
property of the finite vocabulary alone, and a decidable one, so an
instance is settled by evaluation. The lemmas are about lists over any
type and give back both parts at once.
-/

namespace Lib

variable {α : Type*} {sep : α} {words : List (List α)} {s t v w : List α}

/-- No word ends with the separator and a word. -/
def SuffixFree (sep : α) (words : List (List α)) : Prop :=
  ∀ v ∈ words, ∀ w ∈ words, ¬(sep :: w) <:+ v

/-- No word starts with a word and the separator. -/
def PrefixFree (sep : α) (words : List (List α)) : Prop :=
  ∀ v ∈ words, ∀ w ∈ words, ¬(w ++ [sep]) <+: v

instance [DecidableEq α] : Decidable (SuffixFree sep words) :=
  inferInstanceAs (Decidable (∀ v ∈ words, ∀ w ∈ words, ¬(sep :: w) <:+ v))

instance [DecidableEq α] : Decidable (PrefixFree sep words) :=
  inferInstanceAs (Decidable (∀ v ∈ words, ∀ w ∈ words, ¬(w ++ [sep]) <+: v))

theorem SuffixFree.eq_of_append (h : SuffixFree sep words) (hv : v ∈ words) (hw : w ∈ words)
    (heq : s ++ sep :: v = t ++ sep :: w) : s = t ∧ v = w := by
  have hvt : (sep :: v) <:+ t ++ sep :: w := ⟨s, heq⟩
  have hwt : (sep :: w) <:+ t ++ sep :: w := ⟨t, rfl⟩
  have hsame : sep :: v = sep :: w := by
    rcases List.suffix_or_suffix_of_suffix hvt hwt with hvw | hwv
    · exact (List.suffix_cons_iff.mp hvw).resolve_right (h w hw v hv)
    · exact ((List.suffix_cons_iff.mp hwv).resolve_right (h v hv w hw)).symm
  exact ⟨List.append_cancel_right (hsame ▸ heq), (List.cons.inj hsame).2⟩

/-- A word followed by the separator at the front of such a text is the text's word. -/
theorem PrefixFree.eq_of_prefix (h : PrefixFree sep words) (hv : v ∈ words) (hw : w ∈ words)
    (hpre : (v ++ [sep]) <+: w ++ sep :: s) : v = w := by
  have hws : (w ++ [sep]) <+: w ++ sep :: s := ⟨s, by simp⟩
  have hconcat : ∀ {x y : List α}, ¬(x ++ [sep]) <+: y → (x ++ [sep]) <+: y ++ [sep] → x = y := by
    intro x y hnot hxy
    rcases List.prefix_concat_iff.mp (by simpa using hxy) with heq | hpre
    · exact List.append_cancel_right heq
    · exact absurd hpre hnot
  rcases List.prefix_or_prefix_of_prefix hpre hws with hvw | hwv
  · exact hconcat (h w hw v hv) hvw
  · exact (hconcat (h v hv w hw) hwv).symm

theorem PrefixFree.eq_of_append (h : PrefixFree sep words) (hv : v ∈ words) (hw : w ∈ words)
    (heq : v ++ sep :: s = w ++ sep :: t) : v = w ∧ s = t := by
  have hvw : v = w := h.eq_of_prefix hv hw (s := t) ⟨s, by simpa using heq⟩
  subst hvw
  exact ⟨rfl, (List.cons.inj (List.append_cancel_left heq)).2⟩

end Lib
