import NamelistCatalog.Text.CaseTable

/-!
Lower-casing of whole texts by the full Unicode mapping: most characters have a lower case of their
own, U+0130 has one of two characters, and a capital sigma becomes a final sigma at the end of a
word.
-/

namespace NamelistCatalog.Text

/-- The simple lower case of a character outside ASCII. -/
def simpleLower (c : Char) : Char :=
  match lowerRuns.find? fun r => r.1 ≤ c.toNat && c.toNat ≤ r.2.1 with
  | some (first, _, step, target) =>
      if (c.toNat - first) % step == 0 then Char.ofNat (target + (c.toNat - first)) else c
  | none => c

/-- The lower case of a character that does not depend on its surroundings. -/
def lowerChar (c : Char) : List Char :=
  if c.toNat < 128 then [c.toLower]
  else if c.toNat == 0x130 then ['i', '\u0307']
  else [simpleLower c]

def isCased (c : Char) : Bool := inRanges casedRanges c

/-- A character that case rules look through, such as an apostrophe or a combining mark. -/
def isCaseIgnorable (c : Char) : Bool := inRanges caseIgnorableRanges c

/-- Whether the first character that case rules do not look through is a cased letter. -/
def meetsCased (s : List Char) : Bool :=
  match s.dropWhile isCaseIgnorable with
  | [] => false
  | c :: _ => isCased c

/-- Whether a capital sigma between these texts ends a word; `before` runs backwards. -/
def endsWord (before after : List Char) : Bool := meetsCased before && !meetsCased after

/-- The lower case of a text that follows `before`, which runs backwards. -/
def lowerAfter (before : List Char) : List Char → List Char
  | [] => []
  | c :: after =>
      (if c == '\u03a3' then [if endsWord before after then '\u03c2' else '\u03c3']
        else lowerChar c) ++
        lowerAfter (c :: before) after

def lower (s : List Char) : List Char := lowerAfter [] s

/-- The lower case of a text by the ASCII letters alone. -/
def asciiLower (s : List Char) : List Char := s.map Char.toLower

@[simp] theorem lower_nil : lower [] = [] := rfl

example : lower ['\u039f', '\u03a3'] = ['\u03bf', '\u03c2'] := by decide +kernel
example : lower ['\u03a3', '\u039f'] = ['\u03c3', '\u03bf'] := by decide +kernel

end NamelistCatalog.Text
