/-!
# Computations that may wait

`Await W α`: a computation over a world `W`.  It has returned a value, or it waits for an answer of
the world that has not come.

* `Await.zoom`     a computation over a part of the world;
* `Await.wp`       what holds of the result, `none` while it waits, and of the world after it;
* `wp_pure`, `wp_bind`, `wp_zoom`, `wp_mono`   the rules.
-/

namespace Sys

def Await (W α : Type) : Type := W → Option α × W

namespace Await
variable {W V α β : Type}

instance : Monad (Await W) where
  pure a := fun w => (some a, w)
  bind m f := fun w =>
    match m w with
    | (none, w') => (none, w')
    | (some a, w') => f a w'

def modify (f : W → W) : Await W Unit := fun w => (some (), f w)

def zoom (get : W → V) (set : V → W → W) (m : Await V α) : Await W α := fun w =>
  ((m (get w)).1, set (m (get w)).2 w)

def wp (Q : Option α → W → Prop) (m : Await W α) (w : W) : Prop := Q (m w).1 (m w).2

/-- what the continuation of a bind has to establish -/
def bindPost (Q : Option β → W → Prop) (f : α → Await W β) : Option α → W → Prop
  | none, w => Q none w
  | some a, w => (f a).wp Q w

theorem wp_pure {Q : Option α → W → Prop} {a : α} {w : W} (h : Q (some a) w) :
    (pure a : Await W α).wp Q w := h

theorem wp_modify {Q : Option Unit → W → Prop} {f : W → W} {w : W} (h : Q (some ()) (f w)) :
    (modify f).wp Q w := h

theorem wp_bind {Q : Option β → W → Prop} {m : Await W α} {f : α → Await W β} {w : W}
    (h : m.wp (bindPost Q f) w) : (m >>= f).wp Q w := by
  show Q (match m w with | (none, w') => (none, w') | (some a, w') => f a w').1
    (match m w with | (none, w') => (none, w') | (some a, w') => f a w').2
  unfold wp at h
  rcases hm : m w with ⟨r, w'⟩
  rw [hm] at h
  cases r with
  | none => exact h
  | some a => exact h

theorem wp_zoom {Q : Option α → W → Prop} {get : W → V} {set : V → W → W} {m : Await V α} {w : W}
    (h : m.wp (fun r v => Q r (set v w)) (get w)) : (zoom get set m).wp Q w := h

theorem wp_mono {Q Q' : Option α → W → Prop} {m : Await W α} {w : W}
    (hq : ∀ r w', Q r w' → Q' r w') (h : m.wp Q w) : m.wp Q' w := hq _ _ h

end Await

end Sys
