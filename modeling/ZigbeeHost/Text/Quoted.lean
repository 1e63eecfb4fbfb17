import ZigbeeHost.Text.Printable
import ZigbeeHost.Text.Combining

/-!
# Quoted text

A quoted text stands between double quotes. Quotes and backslashes take a
backslash, four control characters have a letter of their own, and every
other character that is unprintable or combining is written as its code
point in braces. All else stands for itself.
-/

namespace ZigbeeHost.Quoted

/-- The code point of a character, as `\u` with lowercase digits in braces. -/
def codePoint (character : Char) : List Char :=
  '\\' :: 'u' :: '\x7b' :: (Nat.toDigits 16 character.toNat ++ ['\x7d'])

/-- The written form of one character. -/
def escape (character : Char) : List Char :=
  match character with
  | '\x00' => ['\\', '0']
  | '\t' => ['\\', 't']
  | '\r' => ['\\', 'r']
  | '\n' => ['\\', 'n']
  | '"' => ['\\', '"']
  | '\\' => ['\\', '\\']
  | character =>
      if Combining.isCombining character || !Printable.isPrintable character then
        codePoint character
      else [character]

/-- A text between double quotes, each character in its written form. -/
def quote (text : String) : String :=
  String.ofList ('"' :: (text.toList.flatMap escape ++ ['"']))

example : quote "a\"b\\c'\t" = "\"a\\\"b\\\\c'\\t\"" := by decide +kernel

/-- A filler is a letter that shows nothing, so it is written as its code point. -/
example : quote "\u1160" = "\"\\u\x7b1160\x7d\"" := by decide +kernel

/-- A halfwidth sound mark takes a place of its own, so it stands for itself. -/
example : quote "0x\uff9e" = "\"0x\uff9e\"" := by decide +kernel

end ZigbeeHost.Quoted
