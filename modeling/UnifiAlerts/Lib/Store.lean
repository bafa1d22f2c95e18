import Mathlib.Data.List.Basic

/-!
# A file behind a write queue

`Store ω δ` is a file of contents `δ` that one object writes. A write
carries the contents it was issued with and its owner `ω`, the task that
waits for it; writes take a lock in the order they were issued, so they
form a queue, and the first of it succeeds, fails, or is dropped with
its owner. A debounced write is only a flag until it is due: any later
write supersedes it, and it takes its contents when it is flushed.

`newest` is what the file holds once the queue has drained. A write that
succeeds leaves `newest` alone, so a fact about `newest` lives from the
issue of a write until a write is lost.
-/

namespace Lib

structure Write (ω δ : Type) where
  owner : ω
  data : δ

structure Store (ω δ : Type) where
  scheduled : Bool := false
  queue : List (Write ω δ) := []
  file : δ
  completed : Nat := 0

namespace Store

variable {ω δ : Type}

/-- An awaited write: it supersedes a scheduled one. -/
def save (owner : ω) (data : δ) (s : Store ω δ) : Store ω δ :=
  { s with scheduled := false, queue := s.queue ++ [⟨owner, data⟩] }

def delaySave (s : Store ω δ) : Store ω δ := { s with scheduled := true }

/-- The debounced write is due and takes the contents of this moment. -/
def flush (owner : ω) (data : δ) (s : Store ω δ) : Store ω δ :=
  if s.scheduled then s.save owner data else s

/-- The first write of the queue ends. -/
def finish (ok : Bool) (s : Store ω δ) : Store ω δ :=
  match s.queue with
  | [] => s
  | w :: rest =>
    if ok then { s with queue := rest, file := w.data, completed := s.completed + 1 }
    else { s with queue := rest }

/-- The writes of some owners do not happen. -/
def drop (gone : ω → Bool) (s : Store ω δ) : Store ω δ :=
  { s with queue := s.queue.filter fun w => !gone w.owner }

/-! ## What the file is about to hold -/

/-- The contents of the last write of the queue, or of the file. -/
def last (file : δ) : List (Write ω δ) → δ
  | [] => file
  | w :: rest => last w.data rest

def newest (s : Store ω δ) : δ := last s.file s.queue

theorem last_append (file : δ) (queue : List (Write ω δ)) (w : Write ω δ) :
    last file (queue ++ [w]) = w.data := by
  induction queue generalizing file with
  | nil => rfl
  | cons v queue ih => exact ih v.data

@[simp] theorem newest_save (owner : ω) (data : δ) (s : Store ω δ) :
    (s.save owner data).newest = data := last_append _ _ _

theorem newest_of_idle {s : Store ω δ} (h : s.queue = []) : s.newest = s.file := by
  rw [newest, h]
  rfl

/-- A write that succeeds is what the file was about to hold. -/
@[simp] theorem newest_finish_true (s : Store ω δ) : (s.finish true).newest = s.newest := by
  unfold finish newest
  cases h : s.queue with
  | nil => simp [h]
  | cons w rest => rfl

/-- A failed write matters only when none is behind it. -/
theorem newest_finish_false {s : Store ω δ} {w v : Write ω δ} {rest : List (Write ω δ)}
    (h : s.queue = w :: v :: rest) : (s.finish false).newest = s.newest := by
  unfold finish newest
  rw [h]
  rfl

/-! ## What the operations keep -/

@[simp] theorem scheduled_finish (ok : Bool) (s : Store ω δ) :
    (s.finish ok).scheduled = s.scheduled := by
  unfold finish
  cases s.queue <;> cases ok <;> rfl

@[simp] theorem queue_finish (ok : Bool) (s : Store ω δ) : (s.finish ok).queue = s.queue.tail := by
  unfold finish
  cases h : s.queue with
  | nil => simpa using h
  | cons w rest => cases ok <;> rfl

theorem finish_idle {s : Store ω δ} (h : s.queue = []) (ok : Bool) : s.finish ok = s := by
  unfold finish
  rw [h]

/-- An awaited write on an idle store, once it has succeeded. -/
theorem finish_save {s : Store ω δ} (h : s.queue = []) (owner : ω) (data : δ) :
    (s.save owner data).finish true =
      { s with scheduled := false, file := data, completed := s.completed + 1 } := by
  unfold finish save
  rw [h]
  rfl

theorem drop_of_none {gone : ω → Bool} {s : Store ω δ} (h : ∀ w ∈ s.queue, gone w.owner = false) :
    s.drop gone = s := by
  have hqueue : s.queue.filter (fun w => !gone w.owner) = s.queue :=
    List.filter_eq_self.mpr fun w hw => by simp [h w hw]
  rw [drop, hqueue]

/-- A drop that loses no write changes nothing. -/
theorem drop_eq_self {gone : ω → Bool} {s : Store ω δ} (h : (s.drop gone).queue = s.queue) :
    s.drop gone = s := by
  rw [drop] at h ⊢
  dsimp only at h
  rw [h]

theorem drop_congr {gone gone' : ω → Bool} {s : Store ω δ}
    (h : ∀ w ∈ s.queue, gone w.owner = gone' w.owner) : s.drop gone = s.drop gone' := by
  have hqueue : s.queue.filter (fun w => !gone w.owner) =
      s.queue.filter fun w => !gone' w.owner :=
    List.filter_congr fun w hw => by rw [h w hw]
  rw [drop, drop, hqueue]

theorem drop_drop (gone gone' : ω → Bool) (s : Store ω δ) :
    (s.drop gone).drop gone' = s.drop fun o => gone o || gone' o := by
  unfold drop
  dsimp only
  rw [List.filter_filter]
  simp only [Bool.not_or, Bool.and_comm]

end Store

end Lib
