/-
# String literals

A string literal stands between quotation marks on one line.  A backslash starts an escape:
one of eleven letters and signs, or `x` with two or `u` with four hexadecimal digits.  This
file reads the body of a literal, that is what follows the opening quotation mark, and writes
the literal of a text.  What is read and what is left always make up the text again
(`Literal.text_readBody`).
-/
import Idl.Token

namespace Idl

namespace Literal

/-- The code point that a backslash and one code point after it stand for. -/
def simpleEscape? (c : CodePoint) : Option CodePoint :=
  if c = 'n' then some '\n'
  else if c = 'r' then some '\r'
  else if c = 't' then some '\t'
  else if c = '0' then some '\x00'
  else if c = 'a' then some '\x07'
  else if c = 'b' then some '\x08'
  else if c = 'f' then some '\x0c'
  else if c = 'v' then some '\x0b'
  else if c = '\\' then some '\\'
  else if c = '"' then some '"'
  else if c = '\'' then some '\''
  else none

/-- What reading the body of a literal gives. -/
inductive Body where
  /-- The literal is closed: its value, the spelling with the closing mark, and the rest. -/
  | closed (value spelling rest : Text)
  /-- The line or the input ends before the literal: what was read, and the rest. -/
  | unclosed (read rest : Text)
  /-- An escape is wrong: what stands before it, what was read of it, and the rest. -/
  | badEscape (fault : Fault) (before read rest : Text)
deriving DecidableEq

namespace Body

/-- The whole text that was looked at. -/
def text : Body → Text
  | .closed _ spelling rest => spelling ++ rest
  | .unclosed read rest => read ++ rest
  | .badEscape _ before read rest => before ++ read ++ rest

/-- Puts a code point in front of the value, and its spelling in front of what was read. -/
def prepend (c : CodePoint) (w : Text) : Body → Body
  | .closed value spelling rest => .closed (c :: value) (w ++ spelling) rest
  | .unclosed read rest => .unclosed (w ++ read) rest
  | .badEscape fault before read rest => .badEscape fault (w ++ before) read rest

theorem text_prepend (c : CodePoint) (w : Text) (b : Body) :
    (b.prepend c w).text = w ++ b.text := by
  cases b <;> simp [prepend, text]

end Body

/-- Reads the body of a literal, from behind the opening quotation mark. -/
def readBody : Text → Body
  | [] => .unclosed [] []
  | c :: r =>
    if c = '"' then .closed [] [c] r
    else if c = '\n' then .unclosed [] (c :: r)
    else if c = '\\' then
      match r with
      | [] => .badEscape .cutEscape [] [c] []
      | e :: r =>
        match simpleEscape? e with
        | some v => (readBody r).prepend v [c, e]
        | none =>
          if e = 'x' then
            match r with
            | h₁ :: h₂ :: r' =>
              match Text.hexValue? [h₁, h₂] with
              | some n => (readBody r').prepend (CodePoint.ofNat n) [c, e, h₁, h₂]
              | none => .badEscape (.fewDigits 2 e) [] [c, e] r
            | _ => .badEscape (.fewDigits 2 e) [] [c, e] r
          else if e = 'u' then
            match r with
            | h₁ :: h₂ :: h₃ :: h₄ :: r' =>
              match Text.hexValue? [h₁, h₂, h₃, h₄] with
              | some n => (readBody r').prepend (CodePoint.ofNat n) [c, e, h₁, h₂, h₃, h₄]
              | none => .badEscape (.fewDigits 4 e) [] [c, e] r
            | _ => .badEscape (.fewDigits 4 e) [] [c, e] r
          else .badEscape (.unknownEscape e) [] [c, e] r
    else (readBody r).prepend c [c]

/-- Reading the body of a literal loses nothing of the text. -/
theorem text_readBody (s : Text) : (readBody s).text = s := by
  match s with
  | [] => rfl
  | c :: r =>
    unfold readBody
    split
    · rfl
    · split
      · rfl
      · split
        · split
          · rfl
          · next e r =>
            split
            · rw [Body.text_prepend, text_readBody r]; rfl
            · split
              · split
                · next h₁ h₂ r =>
                  split
                  · rw [Body.text_prepend, text_readBody r]; rfl
                  · rfl
                · rfl
              · split
                · split
                  · next h₁ h₂ h₃ h₄ r =>
                    split
                    · rw [Body.text_prepend, text_readBody r]; rfl
                    · rfl
                  · rfl
                · rfl
        · rw [Body.text_prepend, text_readBody r]; rfl
termination_by s.length

/-- How one code point is written in a literal: the quotation mark, the backslash and the
controls as escapes, and everything else as it stands. -/
def writePoint (c : CodePoint) : Text :=
  if c = '\\' then "\\\\"
  else if c = '"' then "\\\""
  else if c = '\n' then "\\n"
  else if c = '\r' then "\\r"
  else if c = '\t' then "\\t"
  else if c = '\x00' then "\\0"
  else if c = '\x07' then "\\a"
  else if c = '\x08' then "\\b"
  else if c = '\x0c' then "\\f"
  else if c = '\x0b' then "\\v"
  else if c.toNat < 0x20 || c.toNat = 0x7F then "\\x" ++ Text.ofHex 2 c.toNat
  else [c]

/-- The literal of a text. -/
def write (value : Text) : Text := "\"" ++ value.flatMap writePoint ++ "\""

end Literal

end Idl
