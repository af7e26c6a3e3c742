import Mathlib.Tactic

set_option autoImplicit false

/-! # JSON documents

A document is a tree, an object the list of its members. Reads follow a parser on demand: a read
of the wrong type or of a missing member has no value, and a member is found by its name wherever
it stands in the object.
-/

/-- A JSON value; `number` are the numbers that are not written as an integer. -/
inductive JsonTree where
  | null
  | bool (b : Bool)
  | int (n : Int)
  | number (text : List Char)
  | str (s : List Char)
  | arr (xs : List JsonTree)
  | obj (fields : List (List Char × JsonTree))

namespace JsonTree

/-- The members of an object. -/
def getObject : JsonTree → Option (List (List Char × JsonTree))
  | obj fields => some fields
  | _ => none

def getArray : JsonTree → Option (List JsonTree)
  | arr xs => some xs
  | _ => none

def getString : JsonTree → Option (List Char)
  | str s => some s
  | _ => none

def getBool : JsonTree → Option Bool
  | bool b => some b
  | _ => none

/-- An integer that fits 64 bits. -/
def getInt64 : JsonTree → Option Int
  | int n => if -2 ^ 63 ≤ n ∧ n < 2 ^ 63 then some n else none
  | _ => none

/-- The value of the first member with the name. -/
def findField (fields : List (List Char × JsonTree)) (name : List Char) : Option JsonTree :=
  (fields.find? (fun f => f.1 = name)).map (·.2)

/-- `value[name]`. -/
def get (j : JsonTree) (name : List Char) : Option JsonTree :=
  j.getObject.bind (findField · name)

end JsonTree

/-! ## Quoted text -/

section Quoted

variable {α : Type*} {q : α} {x y r r' : List α}

/-- A text up to its first quote is known from what follows it. -/
theorem append_quote_inj (hx : q ∉ x) (hy : q ∉ y) (h : x ++ q :: r = y ++ q :: r') :
    x = y ∧ r = r' := by
  induction x generalizing y with
  | nil =>
      cases y with
      | nil => exact ⟨rfl, (List.cons.inj h).2⟩
      | cons b y =>
          obtain ⟨rfl, -⟩ := List.cons.inj h
          exact absurd (List.mem_cons_self ..) hy
  | cons a x ih =>
      cases y with
      | nil =>
          obtain ⟨rfl, -⟩ := List.cons.inj h
          exact absurd (List.mem_cons_self ..) hx
      | cons b y =>
          obtain ⟨rfl, htail⟩ := List.cons.inj h
          obtain ⟨rfl, rfl⟩ := ih (fun hq => hx (List.mem_cons_of_mem _ hq))
            (fun hq => hy (List.mem_cons_of_mem _ hq)) htail
          exact ⟨rfl, rfl⟩

/-- A text after its last quote is known from what stands in front of it. -/
theorem quote_append_inj (hr : q ∉ r) (hr' : q ∉ r') (h : x ++ q :: r = y ++ q :: r') :
    x = y ∧ r = r' := by
  have hrev : r.reverse ++ q :: x.reverse = r'.reverse ++ q :: y.reverse := by
    have := congrArg List.reverse h
    simpa using this
  obtain ⟨h1, h2⟩ := append_quote_inj (by simpa using hr) (by simpa using hr') hrev
  exact ⟨List.reverse_injective h2, List.reverse_injective h1⟩

end Quoted
