/-!
# Byte lengths

Texts are lists of characters, while every position in this library is a byte offset into the
UTF-8 form of a text.  This file measures texts in bytes and writes them out as bytes.
-/

namespace InlineExpect.Text

/-- The number of bytes of the UTF-8 form of a text. -/
def byteLength : List Char → Nat
  | [] => 0
  | c :: cs => c.utf8Size + byteLength cs

/-- The UTF-8 form of a text. -/
def utf8 : List Char → List UInt8
  | [] => []
  | c :: cs => String.utf8EncodeChar c ++ utf8 cs

@[simp] theorem byteLength_nil : byteLength [] = 0 := rfl

@[simp] theorem byteLength_cons (c : Char) (cs : List Char) :
    byteLength (c :: cs) = c.utf8Size + byteLength cs := rfl

@[simp] theorem byteLength_append (cs ds : List Char) :
    byteLength (cs ++ ds) = byteLength cs + byteLength ds := by
  induction cs with
  | nil => simp
  | cons c cs ih => simp [ih, Nat.add_assoc]

@[simp] theorem utf8_append (cs ds : List Char) : utf8 (cs ++ ds) = utf8 cs ++ utf8 ds := by
  induction cs with
  | nil => rfl
  | cons c cs ih => simp [utf8, ih]

@[simp] theorem length_utf8 (cs : List Char) : (utf8 cs).length = byteLength cs := by
  induction cs with
  | nil => rfl
  | cons c cs ih => simp [utf8, ih]

theorem byteLength_take_add_drop (n : Nat) (cs : List Char) :
    byteLength (cs.take n) + byteLength (cs.drop n) = byteLength cs := by
  rw [← byteLength_append, List.take_append_drop]

end InlineExpect.Text
