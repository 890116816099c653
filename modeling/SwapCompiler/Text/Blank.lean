/-!
# Blank characters

The characters with the Unicode property `White_Space`, and text without the
blanks at its two ends.
-/

namespace SwapCompiler.Text

/-- The 25 characters with the property `White_Space`, in order. -/
def blanks : List Char :=
  ['\u0009', '\u000a', '\u000b', '\u000c', '\u000d', '\u0020', '\u0085', '\u00a0',
   '\u1680', '\u2000', '\u2001', '\u2002', '\u2003', '\u2004', '\u2005', '\u2006',
   '\u2007', '\u2008', '\u2009', '\u200a', '\u2028', '\u2029', '\u202f', '\u205f',
   '\u3000']

/-- The character is white space. -/
def isBlank (c : Char) : Bool :=
  blanks.contains c

/-- Text without leading and trailing blanks. -/
def trim (text : List Char) : List Char :=
  ((text.dropWhile isBlank).reverse.dropWhile isBlank).reverse

/-- Text that holds blanks only, or nothing. -/
def isBlankText (text : List Char) : Bool :=
  text.all isBlank

/-- Every character that core counts as white space is blank. -/
theorem isBlank_of_isWhitespace {c : Char} (h : c.isWhitespace) : isBlank c := by
  simp only [Char.isWhitespace, Bool.or_eq_true, decide_eq_true_eq] at h
  rcases h with ((rfl | rfl) | rfl) | rfl <;> decide

end SwapCompiler.Text
