import Mathlib.Data.List.Forall2

/-!
# Stateful computations that may raise

`Comp ε σ α` runs on a state `σ` and ends with a value or an exception.
The state survives an exception, as an object's fields do when one of
its methods raises half way.

`wp x Q E s` says that `x`, run from `s`, ends in `Q` or raises in `E`.
The `wp` lemmas below compute it through every construct, so a proof
about a program follows the program, and `wp_mono` weakens the two
postconditions.

`OnlyRaises P x` is the part of a stateless computation that concerns its
exceptions. It is computed by equivalences, so that what makes a
sequence of steps raise something else can be read off it.
-/

namespace Lib

/-! ## Exceptions of a sequence of steps -/

section

variable {ε ε' α β : Type} {P : ε → Prop}

@[simp] theorem ok_bind (a : α) (f : α → Except ε β) : (Except.ok a >>= f) = f a := rfl

@[simp] theorem error_bind (e : ε) (f : α → Except ε β) : (Except.error e >>= f) = .error e := rfl

/-- Whatever the computation raises satisfies `P`; it may also return. -/
def OnlyRaises (P : ε → Prop) (x : Except ε α) : Prop := ∀ e, x = .error e → P e

@[simp] theorem onlyRaises_ok (a : α) : OnlyRaises P (.ok a : Except ε α) := fun _ h => nomatch h

@[simp] theorem onlyRaises_pure (a : α) : OnlyRaises P (pure a : Except ε α) :=
  fun _ h => nomatch h

@[simp] theorem onlyRaises_error {e : ε} : OnlyRaises P (.error e : Except ε α) ↔ P e :=
  ⟨fun h => h e rfl, fun h _ he => Except.error.inj he ▸ h⟩

@[simp] theorem onlyRaises_throw {e : ε} : OnlyRaises P (throw e : Except ε α) ↔ P e :=
  onlyRaises_error

/-- A sequence raises what its first step raises, and what the rest raises after it. -/
@[simp] theorem onlyRaises_bind {x : Except ε α} {f : α → Except ε β} :
    OnlyRaises P (x >>= f) ↔ OnlyRaises P x ∧ ∀ a, x = .ok a → OnlyRaises P (f a) := by
  cases x with
  | ok a =>
      constructor
      · exact fun h => ⟨onlyRaises_ok a, fun b hb => Except.ok.inj hb ▸ h⟩
      · exact fun h => h.2 a rfl
  | error e =>
      constructor
      · exact fun h =>
          ⟨fun e' he' => h e' (by rw [← Except.error.inj he']; rfl), fun _ h => nomatch h⟩
      · exact fun h e' he' => h.1 e' (by rw [← Except.error.inj he'])

/-- Steps on the items of a list all succeed exactly when the list is done. -/
theorem mapM_eq_ok {f : α → Except ε β} : ∀ {as : List α} {bs : List β},
    as.mapM f = .ok bs ↔ List.Forall₂ (fun a b => f a = .ok b) as bs
  | [], bs => by
      rw [List.mapM_nil, List.forall₂_nil_left_iff]
      exact ⟨fun h => (Except.ok.inj h).symm, fun h => h ▸ rfl⟩
  | a :: as, bs => by
      rw [List.mapM_cons, List.forall₂_cons_left_iff]
      cases ha : f a with
      | error e => simp
      | ok b =>
          rw [ok_bind]
          cases has : as.mapM f with
          | error e =>
              refine iff_of_false (fun h => nomatch h) ?_
              rintro ⟨b', bs', -, hrest, -⟩
              rw [← mapM_eq_ok, has] at hrest
              cases hrest
          | ok bs' =>
              have hrest := mapM_eq_ok.mp has
              constructor
              · intro h
                exact ⟨b, bs', rfl, hrest, (Except.ok.inj h).symm⟩
              · rintro ⟨b₁, bs₁, hb, hrest₁, rfl⟩
                obtain rfl := Except.ok.inj hb
                rw [← mapM_eq_ok, has] at hrest₁
                obtain rfl := Except.ok.inj hrest₁
                rfl

theorem exists_mapM_ok {f : α → Except ε β} {as : List α} :
    (∃ bs, as.mapM f = .ok bs) ↔ ∀ a ∈ as, ∃ b, f a = .ok b := by
  simp only [mapM_eq_ok]
  induction as with
  | nil => simp
  | cons a as ih =>
      rw [List.forall_mem_cons, ← ih]
      constructor
      · rintro ⟨bs, h⟩
        obtain ⟨b, bs', hb, hrest, -⟩ := List.forall₂_cons_left_iff.mp h
        exact ⟨⟨b, hb⟩, bs', hrest⟩
      · rintro ⟨⟨b, hb⟩, bs, hrest⟩
        exact ⟨b :: bs, .cons hb hrest⟩

/-- Changing each result is changing the list of results. -/
theorem mapM_map_result {f : α → Except ε β} {g : β → γ} : ∀ as : List α,
    (as.mapM fun a => (f a).map g) = (as.mapM f).map (List.map g)
  | [] => rfl
  | a :: as => by
      rw [List.mapM_cons, List.mapM_cons, mapM_map_result as]
      cases f a with
      | error e => rfl
      | ok b =>
          cases as.mapM f with
          | error e => rfl
          | ok bs => rfl

theorem mem_mapM_ok {f : α → Except ε β} {b : β} : ∀ {as : List α} {bs : List β},
    as.mapM f = .ok bs → (b ∈ bs ↔ ∃ a ∈ as, f a = .ok b)
  | [], bs, h => by
      obtain rfl := Except.ok.inj h
      simp
  | a :: as, bs, h => by
      obtain ⟨b', bs', hb', hrest, rfl⟩ := List.forall₂_cons_left_iff.mp (mapM_eq_ok.mp h)
      have ih := @mem_mapM_ok f b as bs' (mapM_eq_ok.mpr hrest)
      simp only [List.mem_cons, exists_eq_or_imp, hb', Except.ok.injEq, ih]
      rw [eq_comm]

theorem onlyRaises_mapError {f : ε' → ε} {x : Except ε' α} :
    OnlyRaises P (x.mapError f) ↔ OnlyRaises (fun e => P (f e)) x := by
  cases x with
  | ok a => simp [Except.mapError]
  | error e => simp [Except.mapError]

end

def Comp (ε σ α : Type) : Type := σ → Except ε α × σ

namespace Comp

variable {ε σ τ α β : Type}

def pure (a : α) : Comp ε σ α := fun s => (.ok a, s)

def bind (x : Comp ε σ α) (f : α → Comp ε σ β) : Comp ε σ β := fun s =>
  match x s with
  | (.ok a, s') => f a s'
  | (.error e, s') => (.error e, s')

instance : Monad (Comp ε σ) where
  pure := pure
  bind := bind

def raise (e : ε) : Comp ε σ α := fun s => (.error e, s)

def gets (f : σ → α) : Comp ε σ α := fun s => (.ok (f s), s)

def update (f : σ → σ) : Comp ε σ Unit := fun s => (.ok (), f s)

/-- `try x` with a handler: `none` re-raises. -/
def handle (x : Comp ε σ α) (h : ε → Option (Comp ε σ α)) : Comp ε σ α := fun s =>
  match x s with
  | (.ok a, s') => (.ok a, s')
  | (.error e, s') => match h e with
    | some y => y s'
    | none => (.error e, s')

def lift (x : Except ε α) : Comp ε σ α := fun s => (x, s)

/-- Run a computation on one field of a larger state. -/
def zoom (get : τ → σ) (set : σ → τ → τ) (x : Comp ε σ α) : Comp ε τ α := fun t =>
  let (r, s') := x (get t)
  (r, set s' t)

/-- `except … as e: raise f(e)`: what is raised is translated. -/
def mapError {ε' : Type} (f : ε → ε') (x : Comp ε σ α) : Comp ε' σ α := fun s =>
  ((x s).1.mapError f, (x s).2)

/-! ## Running -/

theorem mapError_ok {ε' : Type} {f : ε → ε'} {x : Comp ε σ α} {a : α} {s s' : σ}
    (h : x s = (.ok a, s')) : mapError f x s = (.ok a, s') := by
  unfold mapError
  rw [h]
  rfl

theorem bind_run {x : Comp ε σ β} {f : β → Comp ε σ α} {b : β} {s s' : σ}
    (h : x s = (.ok b, s')) : (x >>= f) s = f b s' := by
  show bind x f s = _
  unfold bind
  rw [h]

theorem bind_error {x : Comp ε σ β} {f : β → Comp ε σ α} {e : ε} {s s' : σ}
    (h : x s = (.error e, s')) : (x >>= f) s = (.error e, s') := by
  show bind x f s = _
  unfold bind
  rw [h]

/-- A sequence ends well when both parts do, the second from where the first ended. -/
theorem bind_ok {x : Comp ε σ β} {f : β → Comp ε σ α} {a : α} {s : σ} :
    ((x >>= f) s).1 = .ok a ↔ ∃ b, (x s).1 = .ok b ∧ (f b (x s).2).1 = .ok a := by
  rcases hx : x s with ⟨r, s'⟩
  cases r with
  | error e => simp [bind_error hx]
  | ok b => simp [bind_run hx]

theorem handle_ok {x : Comp ε σ α} {h : ε → Option (Comp ε σ α)} {a : α} {s s' : σ}
    (hx : x s = (.ok a, s')) : handle x h s = (.ok a, s') := by
  unfold handle
  rw [hx]

theorem handle_error {x : Comp ε σ α} {h : ε → Option (Comp ε σ α)} {e : ε} {s s' : σ}
    (hx : x s = (.error e, s')) (hh : h e = none) : handle x h s = (.error e, s') := by
  unfold handle
  rw [hx]
  dsimp only
  rw [hh]

theorem handle_caught {x y : Comp ε σ α} {h : ε → Option (Comp ε σ α)} {e : ε} {s s' : σ}
    (hx : x s = (.error e, s')) (hh : h e = some y) : handle x h s = y s' := by
  unfold handle
  rw [hx]
  dsimp only
  rw [hh]

@[simp] theorem pure_run (a : α) (s : σ) : (Pure.pure a : Comp ε σ α) s = (.ok a, s) := rfl

@[simp] theorem lift_ok_bind (b : β) (f : β → Comp ε σ α) (s : σ) :
    (lift (.ok b) >>= f) s = f b s := rfl

@[simp] theorem lift_error_bind (e : ε) (f : β → Comp ε σ α) (s : σ) :
    (lift (.error e) >>= f) s = (.error e, s) := rfl

@[simp] theorem gets_bind (g : σ → β) (f : β → Comp ε σ α) (s : σ) :
    (gets g >>= f) s = f (g s) s := rfl

@[simp] theorem update_bind (g : σ → σ) (f : Unit → Comp ε σ α) (s : σ) :
    (update g >>= f) s = f () (g s) := rfl

theorem bind_bind {γ : Type} (x : Comp ε σ α) (f : α → Comp ε σ β) (g : β → Comp ε σ γ) :
    ((x >>= f) >>= g) = x >>= fun a => f a >>= g := by
  funext s
  rcases hx : x s with ⟨r, s'⟩
  cases r with
  | ok a =>
      rw [bind_run hx]
      rcases hf : f a s' with ⟨r', s''⟩
      have hxf : (x >>= f) s = (r', s'') := (bind_run hx).trans hf
      cases r' with
      | ok b => rw [bind_run hxf, bind_run hf]
      | error e => rw [bind_error hxf, bind_error hf]
  | error e => rw [bind_error hx, bind_error (bind_error hx)]

theorem pure_bind_run (a : α) (f : α → Comp ε σ β) : (Pure.pure a >>= f) = f a := rfl

/-! ## Weakest preconditions -/

/-- The weakest precondition of a run: `Q` of the value and the state if it returns, `E`
of the exception and the state if it raises. -/
def wp (x : Comp ε σ α) (Q : α → σ → Prop) (E : ε → σ → Prop) (s : σ) : Prop :=
  match x s with
  | (.ok a, s') => Q a s'
  | (.error e, s') => E e s'

variable {Q Q' : α → σ → Prop} {E E' : ε → σ → Prop} {s : σ}

@[simp] theorem wp_pure {a : α} : wp (Pure.pure a : Comp ε σ α) Q E s ↔ Q a s := Iff.rfl

@[simp] theorem wp_raise {e : ε} : wp (raise e : Comp ε σ α) Q E s ↔ E e s := Iff.rfl

@[simp] theorem wp_gets {f : σ → α} : wp (gets f) Q E s ↔ Q (f s) s := Iff.rfl

@[simp] theorem wp_update {f : σ → σ} {R : Unit → σ → Prop} :
    wp (update f) R E s ↔ R () (f s) := Iff.rfl

@[simp] theorem wp_bind {x : Comp ε σ β} {f : β → Comp ε σ α} :
    wp (x >>= f) Q E s ↔ wp x (fun b => wp (f b) Q E) E s := by
  show wp (bind x f) Q E s ↔ _
  unfold wp bind
  rcases x s with ⟨r, s'⟩
  cases r <;> exact Iff.rfl

theorem wp_handle {x : Comp ε σ α} {h : ε → Option (Comp ε σ α)} :
    wp (handle x h) Q E s ↔ wp x Q (fun e s' =>
      match h e with
      | some y => wp y Q E s'
      | none => E e s') s := by
  unfold wp handle
  rcases x s with ⟨r, s'⟩
  cases r with
  | ok a => exact Iff.rfl
  | error e =>
      dsimp only
      cases h e <;> exact Iff.rfl

theorem wp_lift {x : Except ε α} :
    wp (lift x : Comp ε σ α) Q E s ↔
      (∀ a, x = .ok a → Q a s) ∧ (∀ e, x = .error e → E e s) := by
  cases x <;> simp [wp, lift]

theorem wp_zoom {get : τ → σ} {set : σ → τ → τ} {x : Comp ε σ α} {R : α → τ → Prop}
    {F : ε → τ → Prop} {t : τ} :
    wp (zoom get set x) R F t ↔
      wp x (fun a s' => R a (set s' t)) (fun e s' => F e (set s' t)) (get t) := by
  unfold wp zoom
  dsimp only
  rcases x (get t) with ⟨r, s'⟩
  cases r <;> exact Iff.rfl

theorem wp_mono {x : Comp ε σ α} (h : wp x Q E s) (hQ : ∀ a s', Q a s' → Q' a s')
    (hE : ∀ e s', E e s' → E' e s') : wp x Q' E' s := by
  unfold wp at *
  rcases hx : x s with ⟨r, s'⟩
  rw [hx] at h
  cases r with
  | ok a => exact hQ a s' h
  | error e => exact hE e s' h

/-- A fact about every ending is a fact about the result of the run. -/
theorem wp_iff_run {x : Comp ε σ α} :
    wp x Q E s ↔ (∀ a, (x s).1 = .ok a → Q a (x s).2) ∧
      (∀ e, (x s).1 = .error e → E e (x s).2) := by
  unfold wp
  rcases x s with ⟨r, s'⟩
  cases r <;> simp

/-! ## What every run keeps -/

/-- Every run of `x`, however it ends, takes the state along `R`. -/
def Within (R : σ → σ → Prop) (x : Comp ε σ α) : Prop := ∀ s, R s (x s).2

namespace Within

variable {R : σ → σ → Prop}

theorem pure (hrefl : ∀ s, R s s) (a : α) : Within R (Pure.pure a : Comp ε σ α) := hrefl

theorem raise (hrefl : ∀ s, R s s) (e : ε) : Within R (raise e : Comp ε σ α) := hrefl

theorem gets (hrefl : ∀ s, R s s) (g : σ → α) : Within R (gets g : Comp ε σ α) := hrefl

theorem lift (hrefl : ∀ s, R s s) (x : Except ε α) : Within R (lift x : Comp ε σ α) := hrefl

theorem update {g : σ → σ} (h : ∀ s, R s (g s)) : Within R (update g : Comp ε σ Unit) := h

/-- A bind from one state, where the continuation may use what the first part did. -/
theorem bind_from {S : σ → σ → Prop} {s : σ} (hcomp : ∀ s' s'', R s s' → S s' s'' → R s s'')
    {x : Comp ε σ β} {k : β → Comp ε σ α} (hx : R s (x s).2)
    (hk : ∀ b s', R s s' → S s' (k b s').2) : R s ((x >>= k) s).2 := by
  show R s (Comp.bind x k s).2
  unfold Comp.bind
  rcases hxs : x s with ⟨r, s'⟩
  rw [hxs] at hx
  cases r with
  | ok b => exact hcomp _ _ hx (hk b s' hx)
  | error e => exact hx

theorem bind_at (htrans : ∀ s s' s'', R s s' → R s' s'' → R s s'') {x : Comp ε σ β}
    {k : β → Comp ε σ α} {s : σ} (hx : R s (x s).2)
    (hk : ∀ b s', R s s' → R s' (k b s').2) : R s ((x >>= k) s).2 :=
  bind_from (htrans s) hx hk

theorem bind (htrans : ∀ s s' s'', R s s' → R s' s'' → R s s'') {x : Comp ε σ β}
    {k : β → Comp ε σ α} (hx : Within R x) (hk : ∀ b, Within R (k b)) : Within R (x >>= k) :=
  fun s => bind_at htrans (hx s) fun b s' _ => hk b s'

/-- A handler may do something else than what it guards. -/
theorem handle_from {S : σ → σ → Prop} {s : σ} (hcomp : ∀ s' s'', R s s' → S s' s'' → R s s'')
    {x : Comp ε σ α} {h : ε → Option (Comp ε σ α)} (hx : R s (x s).2)
    (hh : ∀ e y s', h e = some y → R s s' → S s' (y s').2) : R s (Comp.handle x h s).2 := by
  unfold Comp.handle
  rcases hxs : x s with ⟨r, s'⟩
  rw [hxs] at hx
  cases r with
  | ok a => exact hx
  | error e =>
      dsimp only
      split
      · rename_i y hy
        exact hcomp _ _ hx (hh e y s' hy hx)
      · exact hx

theorem handle (htrans : ∀ s s' s'', R s s' → R s' s'' → R s s'') {x : Comp ε σ α}
    {h : ε → Option (Comp ε σ α)} (hx : Within R x) (hh : ∀ e y, h e = some y → Within R y) :
    Within R (Comp.handle x h) := fun s =>
  handle_from (htrans s) (hx s) fun e y s' hy _ => hh e y hy s'

theorem zoom {S : τ → τ → Prop} {get : τ → σ} {set : σ → τ → τ} {x : Comp ε σ α}
    (hx : Within R x) (h : ∀ t s', R (get t) s' → S t (set s' t)) :
    Within S (Comp.zoom get set x) := fun t => h t _ (hx (get t))

end Within

/-- No run of `x`, however it ends, changes `f` of the state. -/
def Keeps {φ : Type} (f : σ → φ) (x : Comp ε σ α) : Prop := Within (fun s s' => f s' = f s) x

namespace Keeps

variable {φ : Type} {f : σ → φ}

theorem pure (a : α) : Keeps f (Pure.pure a : Comp ε σ α) := fun _ => rfl

theorem gets (g : σ → α) : Keeps f (gets g : Comp ε σ α) := fun _ => rfl

theorem lift (x : Except ε α) : Keeps f (lift x : Comp ε σ α) := fun _ => rfl

theorem update {g : σ → σ} (h : ∀ s, f (g s) = f s) : Keeps f (update g : Comp ε σ Unit) := h

theorem bind {x : Comp ε σ β} {k : β → Comp ε σ α} (hx : Keeps f x) (hk : ∀ b, Keeps f (k b)) :
    Keeps f (x >>= k) :=
  Within.bind (fun _ _ _ h h' => h'.trans h) hx hk

theorem handle {x : Comp ε σ α} {h : ε → Option (Comp ε σ α)} (hx : Keeps f x)
    (hh : ∀ e y, h e = some y → Keeps f y) : Keeps f (Comp.handle x h) :=
  Within.handle (fun _ _ _ h h' => h'.trans h) hx hh

theorem zoom {get : τ → σ} {set : σ → τ → τ} {g : τ → φ} {x : Comp ε σ α}
    (h : ∀ s' t, g (set s' t) = g t) : Keeps g (Comp.zoom get set x) := fun t => h _ t

end Keeps

end Comp

end Lib
