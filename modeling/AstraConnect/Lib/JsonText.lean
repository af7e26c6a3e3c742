import AstraConnect.Lib.Decimal
import AstraConnect.Lib.Json
import Mathlib.Data.List.TakeWhile

set_option autoImplicit false

/-! # Reading JSON text

`decode` reads a JSON text into a tree: values, nested objects and arrays, blanks between tokens,
and the number grammar. Strings with escapes are refused, so `decode` answers for the texts
without a backslash. The rules at the end say how each kind of token is read in front of any
rest; a proof about a text puts them together.
-/

namespace JsonText

abbrev Text := List Char

/-! ## Tokens

Each reader takes the longest token that the text begins with and returns what follows it. A number
is taken as a run of number characters first, and only then looked at. -/

/-- The blanks that may stand between tokens. -/
def isBlank (c : Char) : Bool := c = ' ' || c = '\t' || c = '\n' || c = '\r'

def skipBlanks (s : Text) : Text := s.dropWhile isBlank

/-- A string after its opening quote: its characters, and what follows the closing quote. -/
def readString : Text → Option (Text × Text)
  | [] => none
  | c :: r =>
      if c = '"' then some ([], r)
      else if c = '\\' || c.toNat < 32 then none
      else (readString r).map fun p => (c :: p.1, p.2)

def isNumberChar (c : Char) : Bool :=
  c.isDigit || c = '-' || c = '+' || c = '.' || c = 'e' || c = 'E'

/-- Nothing, or `e` and digits, with a sign in front of them or not. -/
def isExponent : Text → Bool
  | [] => true
  | c :: r =>
      let digits := if r.head? = some '+' || r.head? = some '-' then r.tail else r
      (c = 'e' || c = 'E') && digits ≠ [] && digits.all Char.isDigit

/-- Nothing, or a point and digits, and then perhaps an exponent. -/
def isFraction : Text → Bool
  | [] => true
  | c :: r =>
      if c = '.' then r.takeWhile Char.isDigit ≠ [] && isExponent (r.dropWhile Char.isDigit)
      else isExponent (c :: r)

/-- Digits without a leading zero. -/
def isInteger (ds : Text) : Bool := ds = ['0'] || (ds ≠ [] && ds.head? ≠ some '0')

/-- The number without its sign. -/
def unsigned (text : Text) : Text := if text.head? = some '-' then text.tail else text

/-- The value of a text that is a number, and of nothing else. -/
def numberValue (text : Text) : Option JsonTree :=
  let ds := (unsigned text).takeWhile Char.isDigit
  let rest := (unsigned text).dropWhile Char.isDigit
  if isInteger ds && isFraction rest then
    if rest = [] then
      some (.int
        (if text.head? = some '-' then -(Decimal.numeral ds : Int) else Decimal.numeral ds))
    else some (.number text)
  else none

def readNumber (s : Text) : Option (JsonTree × Text) :=
  (numberValue (s.takeWhile isNumberChar)).map fun v => (v, s.dropWhile isNumberChar)

/-- The literal `word`. -/
def readWord (word : Text) (v : JsonTree) (s : Text) : Option (JsonTree × Text) :=
  if s.take word.length = word then some (v, s.drop word.length) else none

/-! ## Values -/

mutual

/-- The value at the start of a text, and what follows it. The number bounds the nesting and the
members read. -/
def readValue : Nat → Text → Option (JsonTree × Text)
  | 0, _ => none
  | fuel + 1, s =>
      match skipBlanks s with
      | [] => none
      | c :: r =>
          if c = '"' then (readString r).map fun p => (.str p.1, p.2)
          else if c = '\x7b' then
            if (skipBlanks r).head? = some '\x7d' then some (.obj [], (skipBlanks r).tail)
            else (readMembers fuel r).map fun p => (.obj p.1, p.2)
          else if c = '[' then
            if (skipBlanks r).head? = some ']' then some (.arr [], (skipBlanks r).tail)
            else (readElements fuel r).map fun p => (.arr p.1, p.2)
          else if c = 't' then readWord "true".toList (.bool true) (c :: r)
          else if c = 'f' then readWord "false".toList (.bool false) (c :: r)
          else if c = 'n' then readWord "null".toList .null (c :: r)
          else readNumber (c :: r)

/-- The members of an object up to its closing brace. -/
def readMembers : Nat → Text → Option (List (Text × JsonTree) × Text)
  | 0, _ => none
  | fuel + 1, s =>
      match skipBlanks s with
      | [] => none
      | c :: r =>
          if c = '"' then
            (readString r).bind fun name =>
            if (skipBlanks name.2).head? = some ':' then
              (readValue fuel (skipBlanks name.2).tail).bind fun value =>
              match skipBlanks value.2 with
              | [] => none
              | d :: r' =>
                  if d = ',' then
                    (readMembers fuel r').map fun p => ((name.1, value.1) :: p.1, p.2)
                  else if d = '\x7d' then some ([(name.1, value.1)], r')
                  else none
            else none
          else none

/-- The elements of an array up to its closing bracket. -/
def readElements : Nat → Text → Option (List JsonTree × Text)
  | 0, _ => none
  | fuel + 1, s =>
      (readValue fuel s).bind fun value =>
      match skipBlanks value.2 with
      | [] => none
      | d :: r =>
          if d = ',' then (readElements fuel r).map fun p => (value.1 :: p.1, p.2)
          else if d = ']' then some ([value.1], r)
          else none

end

/-- The tree of a whole text. -/
def decode (s : Text) : Option JsonTree :=
  (readValue (s.length + 1) s).bind fun p => if skipBlanks p.2 = [] then some p.1 else none

/-! ## Strings -/

/-- A character that stands for itself in a string. -/
def IsPlain (c : Char) : Prop := c ≠ '"' ∧ c ≠ '\\' ∧ 32 ≤ c.toNat

instance (c : Char) : Decidable (IsPlain c) := inferInstanceAs (Decidable (_ ∧ _))

theorem readString_append {t : Text} (ht : ∀ c ∈ t, IsPlain c) (r : Text) :
    readString (t ++ '"' :: r) = some (t, r) := by
  induction t with
  | nil => rfl
  | cons c t ih =>
      obtain ⟨hquote, hslash, hcontrol⟩ := ht c (List.mem_cons_self ..)
      have hok : ¬ (c = '\\' || decide (c.toNat < 32)) = true := by
        simp only [Bool.or_eq_true, decide_eq_true_eq, not_or]
        exact ⟨hslash, by omega⟩
      rw [List.cons_append, readString, if_neg hquote, if_neg hok,
        ih (fun d hd => ht d (List.mem_cons_of_mem _ hd)), Option.map_some]

/-! ## Numbers -/

theorem isNumberChar_of_isDigit {c : Char} (h : c.isDigit = true) : isNumberChar c = true := by
  simp [isNumberChar, h]

theorem isNumberChar_of_exponent {s : Text} (h : isExponent s = true) :
    ∀ c ∈ s, isNumberChar c = true := by
  cases s with
  | nil => simp
  | cons e r =>
      simp only [isExponent, Bool.and_eq_true, List.all_eq_true, Bool.or_eq_true,
        decide_eq_true_eq] at h
      obtain ⟨⟨he, -⟩, hdigits⟩ := h
      have hr : ∀ c ∈ r, isNumberChar c = true := by
        split_ifs at hdigits with hsign
        · cases r with
          | nil => simp
          | cons d r =>
              simp only [List.head?_cons, Option.some.injEq, List.tail_cons] at hsign hdigits
              rw [List.forall_mem_cons]
              refine ⟨?_, fun c hc => isNumberChar_of_isDigit (hdigits c hc)⟩
              rcases hsign with rfl | rfl <;> decide
        · exact fun c hc => isNumberChar_of_isDigit (hdigits c hc)
      rw [List.forall_mem_cons]
      refine ⟨?_, hr⟩
      rcases he with rfl | rfl <;> decide

theorem isNumberChar_of_fraction {s : Text} (h : isFraction s = true) :
    ∀ c ∈ s, isNumberChar c = true := by
  cases s with
  | nil => simp
  | cons e r =>
      rw [isFraction] at h
      split_ifs at h with he
      · rw [Bool.and_eq_true] at h
        rw [List.forall_mem_cons, he]
        refine ⟨by decide, ?_⟩
        intro c hc
        rw [← List.takeWhile_append_dropWhile (p := Char.isDigit) (l := r), List.mem_append] at hc
        rcases hc with hc | hc
        · exact isNumberChar_of_isDigit (List.mem_takeWhile_imp hc)
        · exact isNumberChar_of_exponent h.2 c hc
      · exact isNumberChar_of_exponent h

/-- A number has none but number characters, and at least one. -/
theorem isNumberChar_of_numberValue {text : Text} {v : JsonTree}
    (h : numberValue text = some v) : text ≠ [] ∧ ∀ c ∈ text, isNumberChar c = true := by
  unfold numberValue at h
  dsimp only at h
  have hok : (isInteger ((unsigned text).takeWhile Char.isDigit) &&
      isFraction ((unsigned text).dropWhile Char.isDigit)) = true := by
    by_contra hnot
    rw [if_neg hnot] at h
    cases h
  rw [Bool.and_eq_true] at hok
  have hbody : ∀ c ∈ unsigned text, isNumberChar c = true := by
    intro c hc
    rw [← List.takeWhile_append_dropWhile (p := Char.isDigit) (l := unsigned text),
      List.mem_append] at hc
    rcases hc with hc | hc
    · exact isNumberChar_of_isDigit (List.mem_takeWhile_imp hc)
    · exact isNumberChar_of_fraction hok.2 c hc
  cases text with
  | nil => simp [isInteger, unsigned] at hok
  | cons d r =>
      refine ⟨List.cons_ne_nil _ _, ?_⟩
      unfold unsigned at hbody
      by_cases hsign : (d :: r).head? = some '-'
      · rw [if_pos hsign] at hbody
        rw [List.head?_cons, Option.some.injEq] at hsign
        rw [List.forall_mem_cons, hsign]
        exact ⟨by decide, hbody⟩
      · rw [if_neg hsign] at hbody
        exact hbody

theorem readNumber_append {text r : Text} {v : JsonTree} (h : numberValue text = some v)
    (hr : ∀ c, r.head? = some c → isNumberChar c = false) :
    readNumber (text ++ r) = some (v, r) := by
  have hchars := (isNumberChar_of_numberValue h).2
  have hstop : r.takeWhile isNumberChar = [] ∧ r.dropWhile isNumberChar = r := by
    cases r with
    | nil => exact ⟨rfl, rfl⟩
    | cons c r =>
        rw [List.takeWhile_cons, List.dropWhile_cons, hr c rfl]
        exact ⟨rfl, rfl⟩
  rw [readNumber, List.takeWhile_append_of_pos hchars, List.dropWhile_append_of_pos hchars,
    hstop.1, hstop.2, List.append_nil, h, Option.map_some]

/-! ## Values and members

Rules for a value, a member and an object in front of any rest. The number that bounds the nesting
goes down by one with each, so it only has to be large enough. -/

theorem skipBlanks_cons {c : Char} (h : isBlank c = false) (r : Text) :
    skipBlanks (c :: r) = c :: r := by
  rw [skipBlanks, List.dropWhile_cons, h]
  rfl

/-- A blank in front changes nothing. -/
theorem skipBlanks_blank (r : Text) : skipBlanks (' ' :: r) = skipBlanks r := by
  rw [skipBlanks, List.dropWhile_cons]
  rfl

theorem readValue_blank (fuel : Nat) (s : Text) :
    readValue (fuel + 1) (' ' :: s) = readValue (fuel + 1) s := by
  rw [readValue, readValue, skipBlanks_blank]

theorem readMembers_blank (fuel : Nat) (s : Text) :
    readMembers (fuel + 1) (' ' :: s) = readMembers (fuel + 1) s := by
  rw [readMembers, readMembers, skipBlanks_blank]

theorem readValue_string (fuel : Nat) {t : Text} (ht : ∀ c ∈ t, IsPlain c) (r : Text) :
    readValue (fuel + 1) ('"' :: (t ++ '"' :: r)) = some (.str t, r) := by
  rw [readValue, skipBlanks_cons rfl]
  dsimp only
  rw [if_pos rfl, readString_append ht, Option.map_some]

theorem readValue_number (fuel : Nat) {text r : Text} {v : JsonTree}
    (h : numberValue text = some v) (hr : ∀ c, r.head? = some c → isNumberChar c = false) :
    readValue (fuel + 1) (text ++ r) = some (v, r) := by
  obtain ⟨hne, hchars⟩ := isNumberChar_of_numberValue h
  have hread := readNumber_append h hr
  cases text with
  | nil => exact absurd rfl hne
  | cons c t =>
      have hc := hchars c (List.mem_cons_self ..)
      -- no other kind of value starts with a number character
      have hnot : ∀ d, isNumberChar d = false → c ≠ d := fun d hd he => by
        rw [he, hd] at hc
        cases hc
      have hblank : isBlank c = false := by
        simp only [isBlank, Bool.or_eq_false_iff, decide_eq_false_iff_not]
        exact ⟨⟨⟨hnot _ (by decide), hnot _ (by decide)⟩, hnot _ (by decide)⟩, hnot _ (by decide)⟩
      rw [List.cons_append] at hread ⊢
      rw [readValue, skipBlanks_cons hblank]
      dsimp only
      rw [if_neg (hnot _ (by decide)), if_neg (hnot _ (by decide)), if_neg (hnot _ (by decide)),
        if_neg (hnot _ (by decide)), if_neg (hnot _ (by decide)), if_neg (hnot _ (by decide)),
        hread]

/-- A member, and what its delimiter `d` leads to. -/
theorem readMembers_member (fuel : Nat) {name value r : Text} {v : JsonTree} {d : Char}
    (hname : ∀ c ∈ name, IsPlain c) (hblank : isBlank d = false)
    (hvalue : readValue fuel (value ++ d :: r) = some (v, d :: r)) :
    readMembers (fuel + 1) ('"' :: (name ++ '"' :: ':' :: (value ++ d :: r))) =
      if d = ',' then (readMembers fuel r).map fun p => ((name, v) :: p.1, p.2)
      else if d = '\x7d' then some ([(name, v)], r)
      else none := by
  rw [readMembers, skipBlanks_cons rfl]
  dsimp only
  rw [if_pos rfl, readString_append hname, Option.bind_some]
  dsimp only
  rw [skipBlanks_cons rfl, List.head?_cons, if_pos rfl, List.tail_cons, hvalue, Option.bind_some]
  dsimp only
  rw [skipBlanks_cons hblank]

/-- The last member of an object. -/
theorem readMembers_last (fuel : Nat) {name value r : Text} {v : JsonTree}
    (hname : ∀ c ∈ name, IsPlain c)
    (hvalue : readValue fuel (value ++ '\x7d' :: r) = some (v, '\x7d' :: r)) :
    readMembers (fuel + 1) ('"' :: (name ++ '"' :: ':' :: (value ++ '\x7d' :: r)))
      = some ([(name, v)], r) := by
  rw [readMembers_member fuel hname rfl hvalue, if_neg (by decide), if_pos rfl]

/-- A member in front of others. -/
theorem readMembers_cons (fuel : Nat) {name value r : Text} {v : JsonTree}
    (hname : ∀ c ∈ name, IsPlain c)
    (hvalue : readValue fuel (value ++ ',' :: r) = some (v, ',' :: r)) :
    readMembers (fuel + 1) ('"' :: (name ++ '"' :: ':' :: (value ++ ',' :: r)))
      = (readMembers fuel r).map fun p => ((name, v) :: p.1, p.2) := by
  rw [readMembers_member fuel hname rfl hvalue, if_pos rfl]

/-- An object whose members start with a name. -/
theorem decode_object {s : Text} {fields : List (Text × JsonTree)} (hs : s.head? = some '"')
    (h : readMembers (s.length + 1) s = some (fields, [])) :
    decode ('\x7b' :: s) = some (.obj fields) := by
  cases s with
  | nil => simp at hs
  | cons c r =>
      obtain rfl : c = '"' := by simpa using hs
      rw [decode, readValue, skipBlanks_cons rfl]
      dsimp only
      rw [if_neg (by decide), if_pos rfl, skipBlanks_cons rfl, if_neg (by simp), List.length_cons,
        h,
        Option.map_some, Option.bind_some]
      rfl

end JsonText
