/-!
# JSON values

The values that a JSON text denotes.  Objects keep their members in the order of the text, repeated
names included: whether a repeated name is an error is for the reader of the value to decide.
-/

namespace InlineExpect.Json

/-- A number: an integer of at most 64 bits, or the bits of a finite double. -/
inductive Number where
  | integer (n : Int)
  | double (bits : UInt64)
deriving DecidableEq, Repr, Inhabited

/-- A JSON value. -/
inductive Value where
  | null
  | bool (b : Bool)
  | number (n : Number)
  | string (s : String)
  | array (items : List Value)
  | object (members : List (String × Value))
  /-- A value that is well formed and denotes nothing: a number beyond the doubles, a string with an
  unpaired surrogate, or an object with such a string for a name. -/
  | unreadable
deriving BEq, Repr, Inhabited

namespace Value

/-- A natural number as a value. -/
def nat (n : Nat) : Value := .number (.integer n)

mutual

/-- How deep arrays and objects are nested in a value.  A leaf has height zero. -/
def height : Value → Nat
  | .array items => 1 + heightItems items
  | .object members => 1 + heightMembers members
  | _ => 0

/-- The greatest height of some values. -/
def heightItems : List Value → Nat
  | [] => 0
  | v :: vs => max v.height (heightItems vs)

/-- The greatest height of the values of some members. -/
def heightMembers : List (String × Value) → Nat
  | [] => 0
  | (_, v) :: ms => max v.height (heightMembers ms)

end

end Value

/-! ### Members with distinct names -/

variable {α : Type}

/-- Puts a member into a list in ascending order of names, in place of one of the same name. -/
def insertMember (name : String) (a : α) : List (String × α) → List (String × α)
  | [] => [(name, a)]
  | (n, b) :: ms =>
    if name < n then (name, a) :: (n, b) :: ms
    else if name = n then (name, a) :: ms
    else (n, b) :: insertMember name a ms

/-- Members in ascending order of names.  The last member of a name is the one that counts. -/
def distinctMembers (members : List (String × α)) : List (String × α) :=
  members.foldl (fun ms m => insertMember m.1 m.2 ms) []

theorem mem_insertMember {name : String} {a : α} {ms : List (String × α)} {m : String × α}
    (h : m ∈ insertMember name a ms) : m = (name, a) ∨ m ∈ ms := by
  induction ms with
  | nil => simpa [insertMember] using h
  | cons p ms ih =>
    obtain ⟨n, b⟩ := p
    simp only [insertMember] at h
    split at h
    · simpa using h
    · split at h
      · rcases List.mem_cons.1 h with h | h
        · exact .inl h
        · exact .inr (List.mem_cons_of_mem _ h)
      · rcases List.mem_cons.1 h with h | h
        · exact .inr (h ▸ List.mem_cons_self)
        · rcases ih h with h | h
          · exact .inl h
          · exact .inr (List.mem_cons_of_mem _ h)

end InlineExpect.Json
