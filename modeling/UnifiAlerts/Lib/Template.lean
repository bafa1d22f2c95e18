import Mathlib.Data.List.Basic
import Mathlib.Tactic.Common

/-!
# Delimited tokens in a text

A token is a non-empty run without delimiters between an opening and a
closing delimiter. `scan` reads a text once from the left and cuts it
into `Piece`s, single characters and tokens; its only memory is what
stands behind the last opening delimiter.

A scan is what its tokens make it: it distributes over every token of
the text (`scan_token`), and a text without a token is cut into its
characters (`scan_of_plain`). `substitute` replaces the tokens of a scan,
so what it puts in is never scanned.

The delimiters and the alphabet are parameters, and a replacement is any
function of the token's name. Reading is total: an opening delimiter
that is never closed, or an empty pair, is cut into characters like any
other text. Nothing is lost either way, since the sources of the pieces,
put together, are the text again (`scan_source`). An implementation that
tries a token at every position can therefore be compared with the scan
piece by piece.
-/

namespace Lib.Template

variable {α : Type*}

inductive Piece (α : Type*)
  | char (a : α)
  | token (t : List α)

namespace Piece

/-- The text that the piece was cut from. -/
def source (opening closing : α) : Piece α → List α
  | .char a => [a]
  | .token t => opening :: (t ++ [closing])

def render (opening closing : α) (value : List α → Option (List α)) : Piece α → List α
  | .char a => [a]
  | .token t => (value t).getD (source opening closing (.token t))

end Piece

open Piece

/-- Not empty, and free of delimiters. -/
def IsToken (opening closing : α) (t : List α) : Prop := t ≠ [] ∧ opening ∉ t ∧ closing ∉ t

/-- No token stands between two delimiters anywhere in the text. -/
def Plain (opening closing : α) (as : List α) : Prop :=
  ∀ pre t post, IsToken opening closing t → as ≠ pre ++ opening :: (t ++ closing :: post)

theorem source_chars (opening closing : α) (as : List α) :
    (as.map char).flatMap (source opening closing) = as := by
  induction as with
  | nil => rfl
  | cons a as ih =>
      rw [List.map_cons, List.flatMap_cons, ih]
      rfl

/-- Pieces without a token are the characters of their text. -/
theorem eq_chars (opening closing : α) : ∀ (pieces : List (Piece α)),
    (∀ t, token t ∉ pieces) → pieces = (pieces.flatMap (source opening closing)).map char
  | [], _ => rfl
  | char a :: pieces, h => by
      have ih := eq_chars opening closing pieces fun t ht => h t (List.mem_cons_of_mem _ ht)
      rw [List.flatMap_cons, List.map_append, ← ih]
      rfl
  | token t :: pieces, h => absurd List.mem_cons_self (h t)

section

variable [DecidableEq α]

/-- `pending` is what stands behind the opening delimiter that is still open. -/
def scan (opening closing : α) : Option (List α) → List α → List (Piece α)
  | none, [] => []
  | some pending, [] => (opening :: pending).map char
  | none, a :: as =>
    if a = opening then scan opening closing (some []) as
    else char a :: scan opening closing none as
  | some pending, a :: as =>
    if a = opening then (opening :: pending).map char ++ scan opening closing (some []) as
    else if a = closing then
      if pending = [] then char opening :: char closing :: scan opening closing none as
      else token pending :: scan opening closing none as
    else scan opening closing (some (pending ++ [a])) as

def substitute (opening closing : α) (value : List α → Option (List α)) (as : List α) : List α :=
  (scan opening closing none as).flatMap (render opening closing value)

variable {opening closing : α}

/-! ## The pieces of a text -/

/-- An opening delimiter starts afresh, whatever is pending. -/
theorem scan_opening (bs : List α) : ∀ (state : Option (List α)) (as : List α),
    scan opening closing state (as ++ opening :: bs) =
      scan opening closing state as ++ scan opening closing (some []) bs
  | none, [] => by simp [scan]
  | some pending, [] => by simp [scan]
  | none, a :: as => by
      have ih := fun state => scan_opening bs state as
      simp only [List.cons_append, scan]
      split
      · exact ih _
      · rw [ih, List.cons_append]
  | some pending, a :: as => by
      have ih := fun state => scan_opening bs state as
      simp only [List.cons_append, scan]
      split
      · rw [ih, List.append_assoc]
      · split
        · split <;> simp only [ih, List.cons_append]
        · exact ih _

/-- A run without delimiters joins what is pending. -/
theorem scan_pending (bs : List α) : ∀ {run pending : List α}, opening ∉ run → closing ∉ run →
    scan opening closing (some pending) (run ++ bs) =
      scan opening closing (some (pending ++ run)) bs
  | [], pending, _, _ => by simp
  | a :: run, pending, hopen, hclose => by
      rw [List.mem_cons, not_or] at hopen hclose
      rw [List.cons_append, scan, if_neg (Ne.symm hopen.1), if_neg (Ne.symm hclose.1),
        scan_pending bs hopen.2 hclose.2, List.append_assoc]
      rfl

/-- Between tokens a run without opening delimiters is read as it stands. -/
theorem scan_run (bs : List α) : ∀ {run : List α}, opening ∉ run →
    scan opening closing none (run ++ bs) = run.map char ++ scan opening closing none bs
  | [], _ => rfl
  | a :: run, hopen => by
      rw [List.mem_cons, not_or] at hopen
      rw [List.cons_append, scan, if_neg (Ne.symm hopen.1), scan_run bs hopen.2]
      rfl

/-- An opening delimiter whose run is empty, or not closed, is read as it stands. -/
theorem scan_unclosed {run bs : List α} (hopen : opening ∉ run) (hclose : closing ∉ run)
    (hne : closing ≠ opening)
    (hend : run = [] ∧ bs.head? = some closing ∨ bs = [] ∨ bs.head? = some opening) :
    scan opening closing none (opening :: (run ++ bs)) =
      char opening :: scan opening closing none (run ++ bs) := by
  rw [scan, if_pos rfl, scan_pending _ hopen hclose, scan_run _ hopen, List.nil_append]
  rcases hend with ⟨rfl, hhead⟩ | rfl | hhead
  · obtain ⟨cs, rfl⟩ := List.head?_eq_some_iff.mp hhead
    simp [scan, hne]
  · simp [scan]
  · obtain ⟨cs, rfl⟩ := List.head?_eq_some_iff.mp hhead
    simp [scan]

theorem scan_token {t : List α} (h : IsToken opening closing t) (hne : closing ≠ opening)
    (pre post : List α) :
    scan opening closing none (pre ++ opening :: (t ++ closing :: post)) =
      scan opening closing none pre ++ token t :: scan opening closing none post := by
  obtain ⟨hnil, hopen, hclose⟩ := h
  rw [scan_opening, scan_pending _ hopen hclose, List.nil_append, scan, if_neg hne, if_pos rfl,
    if_neg hnil]

def pendingSource (opening : α) : Option (List α) → List α
  | none => []
  | some pending => opening :: pending

/-- Nothing of the text is lost. -/
theorem scan_source : ∀ (state : Option (List α)) (as : List α),
    (scan opening closing state as).flatMap (source opening closing) =
      pendingSource opening state ++ as
  | none, [] => rfl
  | some pending, [] => by
      rw [scan, source_chars, pendingSource, List.append_nil]
  | none, a :: as => by
      have ih := fun state => scan_source state as
      rw [scan]
      split
      · rename_i ha
        rw [ih, ha]
        rfl
      · rw [List.flatMap_cons, ih]
        rfl
  | some pending, a :: as => by
      have ih := fun state => scan_source state as
      rw [scan]
      split
      · rename_i ha
        rw [List.flatMap_append, source_chars, ih, ha]
        rfl
      · split
        · rename_i ha
          split
          · rename_i hnil
            simp [ih, ha, hnil, source, pendingSource]
          · simp [ih, ha, source, pendingSource]
        · rw [ih]
          simp [pendingSource]

/-- What is cut out as a token is one. -/
theorem isToken_of_mem : ∀ (state : Option (List α)) {as : List α} {t : List α},
    (∀ pending, state = some pending → opening ∉ pending ∧ closing ∉ pending) →
    token t ∈ scan opening closing state as → IsToken opening closing t
  | none, [], t, _, h => by simp [scan] at h
  | some pending, [], t, _, h => by simp [scan] at h
  | none, a :: as, t, hstate, h => by
      rw [scan] at h
      split at h
      · exact isToken_of_mem (some []) (by simp) h
      · exact isToken_of_mem none hstate (by simpa using h)
  | some pending, a :: as, t, hstate, h => by
      obtain ⟨hopen, hclose⟩ := hstate pending rfl
      rw [scan] at h
      split at h
      · exact isToken_of_mem (some []) (by simp) (by simpa using h)
      · rename_i ha
        split at h
        · split at h
          · exact isToken_of_mem none (by simp) (by simpa using h)
          · rename_i hnil
            rcases List.mem_cons.mp h with heq | h
            · obtain rfl := Piece.token.inj heq
              exact ⟨hnil, hopen, hclose⟩
            · exact isToken_of_mem none (by simp) h
        · rename_i hb
          refine isToken_of_mem _ (fun p hp => ?_) h
          obtain rfl := Option.some.inj hp
          exact ⟨by simp [hopen, Ne.symm ha], by simp [hclose, Ne.symm hb]⟩

theorem scan_of_plain {as : List α} (h : Plain opening closing as) :
    scan opening closing none as = as.map char := by
  have hnone : ∀ t, token t ∉ scan opening closing none as := by
    intro t hpiece
    -- the text around a token of the scan shows where it stands
    obtain ⟨pre, post, hsplit⟩ := List.append_of_mem hpiece
    have htoken := isToken_of_mem none (by simp) hpiece
    have hsource := @scan_source α _ opening closing none as
    rw [hsplit] at hsource
    refine absurd ?_ (h (pre.flatMap (source opening closing)) t
      (post.flatMap (source opening closing)) htoken)
    simpa [source, pendingSource] using hsource.symm
  rw [eq_chars opening closing _ hnone, scan_source]
  rfl

/-! ## Substitution -/

variable (value : List α → Option (List α))

theorem substitute_token {t : List α} (h : IsToken opening closing t) (hne : closing ≠ opening)
    (pre post : List α) :
    substitute opening closing value (pre ++ opening :: (t ++ closing :: post)) =
      substitute opening closing value pre ++
        (value t).getD (opening :: (t ++ [closing])) ++ substitute opening closing value post := by
  unfold substitute
  rw [scan_token h hne, List.flatMap_append, List.flatMap_cons, List.append_assoc]
  rfl

theorem substitute_of_plain {as : List α} (h : Plain opening closing as) :
    substitute opening closing value as = as := by
  unfold substitute
  rw [scan_of_plain h, List.flatMap_map]
  exact List.flatMap_singleton' as

end

end Lib.Template
