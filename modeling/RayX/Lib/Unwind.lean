/-!
# Computations that throw

`Throws S ε α`: a computation over a store `S`.  It returns a value or throws, and what it did to the
store before it threw stays done.

* `Throws.protect`    `try` with a handler that throws on;
* `Throws.scope`      a block with locals of its own, destroyed however the block ends;
* `Throws.wp`         what holds after a return, and what holds after an exception;
* `wp_pure`, `wp_mayRaise`, `wp_bind`, `wp_protect`, `wp_scope`, `wp_mono`   the rules.
-/

namespace Sys

def Throws (S ε α : Type) : Type := S → Except ε α × S

namespace Throws
variable {S T ε α β : Type}

instance : Monad (Throws S ε) where
  pure a := fun s => (.ok a, s)
  bind m f := fun s =>
    match m s with
    | (.ok a, s') => f a s'
    | (.error e, s') => (.error e, s')

def raise (e : ε) : Throws S ε α := fun s => (.error e, s)

def read (f : S → α) : Throws S ε α := fun s => (.ok (f s), s)

def modify (f : S → S) : Throws S ε Unit := fun s => (.ok (), f s)

/-- a step that throws `e` or does nothing -/
def mayRaise : Option ε → Throws S ε Unit
  | none => pure ()
  | some e => raise e

def protect (handler : S → S) (m : Throws S ε α) : Throws S ε α := fun s =>
  match m s with
  | (.ok a, s') => (.ok a, s')
  | (.error e, s') => (.error e, handler s')

def scope (enter : T → S) (leave : S → T) (m : Throws S ε α) : Throws T ε α := fun t =>
  ((m (enter t)).1, leave (m (enter t)).2)

def wp (ok : α → S → Prop) (err : ε → S → Prop) (m : Throws S ε α) (s : S) : Prop :=
  match m s with
  | (.ok a, s') => ok a s'
  | (.error e, s') => err e s'

section
variable {ok : α → S → Prop} {err : ε → S → Prop} {s : S}

theorem wp_pure {a : α} (h : ok a s) : (pure a : Throws S ε α).wp ok err s := h

theorem wp_read {f : S → α} (h : ok (f s) s) : (read f : Throws S ε α).wp ok err s := h

theorem wp_modify {ok : Unit → S → Prop} {f : S → S} (h : ok () (f s)) :
    (modify f : Throws S ε Unit).wp ok err s := h

theorem wp_mayRaise {ok : Unit → S → Prop} {x : Option ε} (hok : x = none → ok () s)
    (herr : ∀ e, x = some e → err e s) : (mayRaise x).wp ok err s := by
  cases x with
  | none => exact hok rfl
  | some e => exact herr e rfl

theorem wp_bind {m : Throws S ε β} {f : β → Throws S ε α}
    (h : m.wp (fun b s' => (f b).wp ok err s') err s) : (m >>= f).wp ok err s := by
  show match (match m s with | (.ok b, s') => f b s' | (.error e, s') => (.error e, s')) with
    | (.ok a, s') => ok a s'
    | (.error e, s') => err e s'
  unfold wp at h
  rcases hm : m s with ⟨r, s'⟩
  rw [hm] at h
  cases r with
  | ok b => exact h
  | error e => exact h

theorem wp_protect {handler : S → S} {m : Throws S ε α}
    (h : m.wp ok (fun e s' => err e (handler s')) s) : (protect handler m).wp ok err s := by
  unfold wp at h ⊢
  unfold protect
  rcases hm : m s with ⟨r, s'⟩
  rw [hm] at h
  cases r with
  | ok a => exact h
  | error e => exact h

theorem wp_scope {enter : T → S} {leave : S → T} {m : Throws S ε α} {ok : α → T → Prop}
    {err : ε → T → Prop} {t : T}
    (h : m.wp (fun a s => ok a (leave s)) (fun e s => err e (leave s)) (enter t)) :
    (scope enter leave m).wp ok err t := by
  unfold wp at h ⊢
  unfold scope
  rcases hm : m (enter t) with ⟨r, s'⟩
  rw [hm] at h
  cases r with
  | ok a => exact h
  | error e => exact h

theorem wp_mono {m : Throws S ε α} {ok' : α → S → Prop} {err' : ε → S → Prop}
    (hok : ∀ a s', ok' a s' → ok a s') (herr : ∀ e s', err' e s' → err e s')
    (h : m.wp ok' err' s) : m.wp ok err s := by
  unfold wp at h ⊢
  rcases hm : m s with ⟨r, s'⟩
  rw [hm] at h
  cases r with
  | ok a => exact hok a s' h
  | error e => exact herr e s' h

end

end Throws

end Sys
