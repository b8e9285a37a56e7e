import LangFront.Text.Location
import LangFront.Token.Kind
/-!
# Tokens

A token is a kind, an optional payload and the location where it starts. The scanner gives a
payload to names and numbers only, but a token built by hand may carry any payload on any kind,
and every operation here is defined for all of them.

Two tokens are the same token (`Token.eqv`) when kind and payload agree, wherever they stand.
A token is named in messages by its payload first and by its kind only when it has none
(`Token.display`).
-/

namespace LangFront.Token

/-- What a name or number token carries: a 32-bit number or the text of a name. -/
inductive Payload where
  | number (value : Int32)
  | name (text : String)
deriving DecidableEq, Repr

/-- How a payload is named in messages. -/
def Payload.display : Payload → String
  | .number n => "number " ++ toString n.toInt
  | .name s => "identifier '" ++ s ++ "'"

end LangFront.Token

namespace LangFront

/-- A token: its kind, what it carries, and where it starts. -/
structure Token where
  /-- The kind of the token. -/
  kind : Token.Kind
  /-- The number or name it carries, if any. -/
  payload : Option Token.Payload := none
  /-- Where its first character stands. -/
  location : Location := default
deriving DecidableEq, Repr

namespace Token

instance : Inhabited Token := ⟨⟨.endOfFile, none, default⟩⟩

/-- A number token as the scanner makes it. -/
def ofNumber (n : Int32) (l : Location) : Token := ⟨.number, some (.number n), l⟩

/-- A name token as the scanner makes it. -/
def ofName (s : String) (l : Location) : Token := ⟨.identifier, some (.name s), l⟩

/-- The token that closes every scanned text. -/
def endOfFile (l : Location) : Token := ⟨.endOfFile, none, l⟩

/-- The number a token carries, if its payload is a number. -/
def number? (t : Token) : Option Int32 :=
  match t.payload with
  | some (.number n) => some n
  | _ => none

/-- The name a token carries, if its payload is a name. -/
def name? (t : Token) : Option String :=
  match t.payload with
  | some (.name s) => some s
  | _ => none

/-- Does the token close the text? -/
def isEnd (t : Token) : Bool := t.kind = .endOfFile

/-- Two tokens are the same token when kind and payload agree; the location does not count. -/
def eqv (a b : Token) : Bool := a.kind = b.kind && a.payload = b.payload

/-- How a token is named in messages: by its payload if it has one, else by its kind. -/
def display (t : Token) : String :=
  match t.payload with
  | some p => p.display
  | none => t.kind.display

@[simp] theorem eqv_iff (a b : Token) : a.eqv b = true ↔ a.kind = b.kind ∧ a.payload = b.payload := by
  simp [eqv]

theorem eqv_refl (a : Token) : a.eqv a = true := by simp

theorem eqv_comm (a b : Token) : a.eqv b = b.eqv a := by
  rw [Bool.eq_iff_iff, eqv_iff, eqv_iff]
  exact ⟨fun h => ⟨h.1.symm, h.2.symm⟩, fun h => ⟨h.1.symm, h.2.symm⟩⟩

@[simp] theorem number?_ofNumber (n : Int32) (l : Location) : (ofNumber n l).number? = some n := rfl

@[simp] theorem name?_ofName (s : String) (l : Location) : (ofName s l).name? = some s := rfl

end Token

end LangFront
