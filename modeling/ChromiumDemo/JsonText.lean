import Mathlib.Algebra.BigOperators.Group.List.Basic
import Mathlib.Algebra.Ring.Nat

/-! JSON texts as bytes: the grammar of the values, and comma-separated lists of
texts with white space around them. A list has one comma between two neighbours,
so that commas can be counted. -/

namespace JsonText

abbrev Text := List UInt8

def ascii (c : Char) : UInt8 := c.toUInt8

def isSpace (b : UInt8) : Bool :=
  b = ascii ' ' || b = ascii '\t' || b = ascii '\n' || b = ascii '\r'

def isDigit (b : UInt8) : Bool := ascii '0' ≤ b && b ≤ ascii '9'

def isHexDigit (b : UInt8) : Bool :=
  isDigit b || ascii 'a' ≤ b && b ≤ ascii 'f' || ascii 'A' ≤ b && b ≤ ascii 'F'

def Blank (t : Text) : Prop := ∀ b ∈ t, isSpace b = true

def comma : Text := [ascii ',']

def commas (t : Text) : Nat := t.count (ascii ',')

inductive Separated : List Text → Text → Prop
  | one {before after : Text} (t : Text) : Blank before → Blank after →
      Separated [t] (before ++ t ++ after)
  | cons {before after rest : Text} {ts : List Text} (t : Text) : Blank before → Blank after →
      Separated ts rest → Separated (t :: ts) (before ++ t ++ after ++ comma ++ rest)

def Bracketed (opening closing : Char) (ts : List Text) (text : Text) : Prop :=
  ∃ inner, text = [ascii opening] ++ inner ++ [ascii closing] ∧
    (ts = [] ∧ Blank inner ∨ Separated ts inner)

inductive Escape : Text → Prop
  | short (c : Char) : c ∈ ['"', '\\', '/', 'b', 'f', 'n', 'r', 't'] → Escape [ascii c]
  | unicode (a b c d : UInt8) : isHexDigit a → isHexDigit b → isHexDigit c → isHexDigit d →
      Escape [ascii 'u', a, b, c, d]

inductive Characters : Text → Prop
  | nil : Characters []
  | plain {rest : Text} (b : UInt8) : 0x20 ≤ b → b ≠ ascii '"' → b ≠ ascii '\\' →
      Characters rest → Characters (b :: rest)
  | escape {e rest : Text} : Escape e → Characters rest → Characters (ascii '\\' :: e ++ rest)

def IsString (t : Text) : Prop :=
  ∃ characters, t = [ascii '"'] ++ characters ++ [ascii '"'] ∧ Characters characters

def Digits (t : Text) : Prop := t ≠ [] ∧ ∀ b ∈ t, isDigit b = true

def IsInteger (t : Text) : Prop := Digits t ∧ (t.head? = some (ascii '0') → t.length = 1)

def IsFraction (t : Text) : Prop := t = [] ∨ ∃ digits, t = ascii '.' :: digits ∧ Digits digits

def IsExponent (t : Text) : Prop :=
  t = [] ∨ ∃ e sign digits, t = e :: sign ++ digits ∧ (e = ascii 'e' ∨ e = ascii 'E') ∧
    (sign = [] ∨ sign = [ascii '+'] ∨ sign = [ascii '-']) ∧ Digits digits

def IsNumber (t : Text) : Prop :=
  ∃ sign integer fraction exponent, t = sign ++ integer ++ fraction ++ exponent ∧
    (sign = [] ∨ sign = [ascii '-']) ∧ IsInteger integer ∧ IsFraction fraction ∧
    IsExponent exponent

def literals : List Text :=
  [[ascii 't', ascii 'r', ascii 'u', ascii 'e'],
    [ascii 'f', ascii 'a', ascii 'l', ascii 's', ascii 'e'],
    [ascii 'n', ascii 'u', ascii 'l', ascii 'l']]

/-- `members` are the name and the value of each member of an object with the text of
the two. -/
inductive Value : Text → Prop
  | literal {t : Text} : t ∈ literals → Value t
  | string {t : Text} : IsString t → Value t
  | number {t : Text} : IsNumber t → Value t
  | array {t : Text} (elements : List Text) : (∀ e ∈ elements, Value e) →
      Bracketed '[' ']' elements t → Value t
  | object {t : Text} (members : List (Text × Text × Text)) :
      (∀ m ∈ members, IsString m.1) → (∀ m ∈ members, Value m.2.1) →
      (∀ m ∈ members, ∃ before after, Blank before ∧ Blank after ∧
        m.2.2 = m.1 ++ before ++ [ascii ':'] ++ after ++ m.2.1) →
      Bracketed '{' '}' (members.map fun m => m.2.2) t → Value t

def IsObject (t : Text) : Prop := Value t ∧ t.head? = some (ascii '{')

/-- A JSON array that has these texts as its elements. -/
def IsArray (elements : List Text) (t : Text) : Prop :=
  (∀ e ∈ elements, Value e) ∧ Bracketed '[' ']' elements t

theorem Blank.append {a b : Text} (ha : Blank a) (hb : Blank b) : Blank (a ++ b) := by
  intro c member
  exact (List.mem_append.mp member).elim (ha c) (hb c)

namespace Separated
variable {ts us : List Text} {t u : Text}

theorem ne_nil (h : Separated ts t) : ts ≠ [] := by
  cases h <;> exact List.cons_ne_nil _ _

theorem blank_append {b : Text} (blank : Blank b) (h : Separated ts t) : Separated ts (b ++ t) := by
  cases h with
  | one t before after =>
    rw [← List.append_assoc, ← List.append_assoc]
    exact .one t (blank.append before) after
  | cons t before after rest =>
    rw [← List.append_assoc, ← List.append_assoc, ← List.append_assoc, ← List.append_assoc]
    exact .cons t (blank.append before) after rest

theorem append (h : Separated ts t) (k : Separated us u) :
    Separated (ts ++ us) (t ++ comma ++ u) := by
  induction h with
  | one t before after => exact .cons t before after k
  | cons t before after _ ih =>
    rw [List.append_assoc, List.append_assoc, ← List.append_assoc _ comma]
    exact .cons t before after ih

end Separated

@[simp] theorem commas_append (t u : Text) : commas (t ++ u) = commas t + commas u :=
  List.count_append

@[simp] theorem commas_comma : commas comma = 1 := rfl

theorem commas_blank {b : Text} (blank : Blank b) : commas b = 0 := by
  rw [commas, List.count_eq_zero]
  intro member
  exact absurd (blank _ member) (by decide)

theorem Separated.commas {ts : List Text} {t : Text} (h : Separated ts t) :
    JsonText.commas t + 1 = (ts.map JsonText.commas).sum + ts.length := by
  induction h with
  | one t before after => simp [commas_blank before, commas_blank after]
  | cons t before after _ ih =>
    simp only [commas_append, commas_blank before, commas_blank after, commas_comma, List.map_cons,
      List.sum_cons, List.length_cons]
    omega

theorem commas_brackets (inner : Text) :
    commas ([ascii '['] ++ inner ++ [ascii ']']) = commas inner := by
  have opening : commas [ascii '['] = 0 := by decide
  have closing : commas [ascii ']'] = 0 := by decide
  rw [commas_append, commas_append, opening, closing, Nat.zero_add, Nat.add_zero]

theorem IsArray.commas {elements : List Text} {t : Text} (h : IsArray elements t) :
    JsonText.commas t = (elements.map JsonText.commas).sum + (elements.length - 1) := by
  obtain ⟨inner, rfl, ⟨rfl, blank⟩ | separated⟩ := h.2
  · rw [commas_brackets, commas_blank blank]
    rfl
  · have counted := separated.commas
    have positive := List.length_pos_iff.mpr separated.ne_nil
    rw [commas_brackets]
    omega

end JsonText
