import SoapBindings.Json.Reader
import SoapBindings.Json.Writer
-- A format gives a type the shape of its data and turns the values of the one into the values of
-- the other, without loss in either direction. So a type is read and written by its shape.

namespace SoapBindings

structure Format (α : Type) where
  shape   : Json.Shape
  ofValue : shape.Value → α
  toValue : α → shape.Value
  of_to   : ∀ a, ofValue (toValue a) = a
  to_of   : ∀ v, toValue (ofValue v) = v

namespace Format

variable {α : Type}

def read (f : Format α) (text : String) : Except Json.ReadError α :=
  f.ofValue <$> f.shape.readText text

def write (f : Format α) (a : α) : String :=
  f.shape.writeText (f.toValue a)

def list (f : Format α) : Format (List α) where
  shape   := .list f.shape
  ofValue := List.map f.ofValue
  toValue := List.map f.toValue
  of_to l := by simp [Function.comp_def, f.of_to]
  to_of l := by simp [Function.comp_def, f.to_of]

end Format

end SoapBindings
