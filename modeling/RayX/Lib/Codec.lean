/-!
# Lossy codecs

An encoder that keeps of a value what its fields can hold, and the decoder of its frames.

* `Codec`         `norm x` is what a frame holds of `x`;
* `again`         **what was decoded has the frame that it was decoded from**.
-/

namespace Sys

structure Codec (α β : Type) where
  encode : α → β
  decode : β → Option α
  norm : α → α
  decode_encode : ∀ x, decode (encode x) = some (norm x)
  encode_norm : ∀ x, encode (norm x) = encode x

namespace Codec
variable {α β : Type} (c : Codec α β)

/-- what was decoded is encoded again to the frame that it was decoded from -/
theorem again (x : α) : ∃ y, c.decode (c.encode x) = some y ∧ c.encode y = c.encode x :=
  ⟨c.norm x, c.decode_encode x, c.encode_norm x⟩

end Codec

end Sys
