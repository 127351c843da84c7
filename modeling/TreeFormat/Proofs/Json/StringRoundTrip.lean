import Mathlib.Data.List.Basic
import Mathlib.Tactic.SplitIfs
import TreeFormat.Json.Quoted

/-!
# Quoted strings read back

`Quoted.render` escapes a character, writes its code, or writes it as it is.
This module shows that `Quoted.read` undoes each of the three, one character at
a time, and hence takes a written string off any text that starts with it.
-/

namespace TreeFormat.Json.Quoted

/-- The digits that writing uses read back as their values. -/
theorem hexDigit?_digitChar :
    ∀ value < 16, hexDigit? (Nat.digitChar value) = some value := by
  decide

/-- A control character is written with its code, which reads back. -/
theorem readFrom_controlCode
    {c : Char} (hc : c < ' ') (taken rest : List Char) :
    readFrom .plain taken
        ('\\' :: 'u' :: '0' :: '0' :: Nat.digitChar (c.toNat / 16) ::
          Nat.digitChar (c.toNat % 16) :: rest) =
      readFrom .plain (c :: taken) rest := by
  have hsmall : c.toNat < 32 := hc
  have hzero : hexDigit? '0' = some 0 := by decide
  have hhigh : hexDigit? (Nat.digitChar (c.toNat / 16)) = some (c.toNat / 16) :=
    hexDigit?_digitChar _ (by omega)
  have hlow : hexDigit? (Nat.digitChar (c.toNat % 16)) = some (c.toNat % 16) :=
    hexDigit?_digitChar _ (by omega)
  have hcode : c.toNat / 16 * 16 + c.toNat % 16 = c.toNat := by omega
  have hunit : Unit16.ofValue none c.toNat = .char c := by
    have hnotLow : isLowSurrogate c.toNat = false := by
      simp [isLowSurrogate]
      omega
    have hnotHigh : isHighSurrogate c.toNat = false := by
      simp [isHighSurrogate]
      omega
    simp [Unit16.ofValue, hnotLow, hnotHigh]
  simp [readFrom, hzero, hhigh, hlow, hcode, hunit]

/-- Whatever writing makes of a character, reading takes as that character. -/
theorem readFrom_renderChar
    (c : Char) (taken rest : List Char) :
    readFrom .plain taken (renderChar c ++ rest) =
      readFrom .plain (c :: taken) rest := by
  unfold renderChar
  split_ifs with hquote hbackslash hb hf hn hr ht hcontrol
  · simp [readFrom, shortEscape?, hquote]
  · simp [readFrom, shortEscape?, hbackslash]
  · simp [readFrom, shortEscape?, hb]
  · simp [readFrom, shortEscape?, hf]
  · simp [readFrom, shortEscape?, hn]
  · simp [readFrom, shortEscape?, hr]
  · simp [readFrom, shortEscape?, ht]
  · exact readFrom_controlCode hcontrol taken rest
  · simp [readFrom, hquote, hbackslash, hcontrol]

theorem readFrom_flatMap_renderChar
    (content taken rest : List Char) :
    readFrom .plain taken (content.flatMap renderChar ++ rest) =
      readFrom .plain (content.reverse ++ taken) rest := by
  induction content generalizing taken with
  | nil => simp
  | cons c content ih =>
      rw [List.flatMap_cons, List.append_assoc, readFrom_renderChar, ih]
      simp

/-- A written string is taken off a text that goes on behind it. -/
theorem read_render
    (text : String) (rest : List Char) :
    read (text.toList.flatMap renderChar ++ '"' :: rest) = .ok (text, rest) := by
  rw [read, readFrom_flatMap_renderChar]
  simp [readFrom]

end TreeFormat.Json.Quoted
