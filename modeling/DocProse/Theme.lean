/-!
# Themes

How the parts of a listing are set off on a terminal.  A style is a list of
display attributes, which a text is put between.  The plain theme has no
attributes, so that it leaves every text as it is.
-/

namespace DocProse

/-- Display attributes by number. -/
abbrev Style := List Nat

/-- The text that ends all attributes. -/
def resetAttributes : String := "\x1b[0m"

/-- A text in a style. -/
def Style.paint (style : Style) (text : String) : String :=
  if style.isEmpty then text
  else "\x1b[" ++ ";".intercalate (style.map toString) ++ "m" ++ text ++ resetAttributes

/-- The style of each part of a listing. -/
structure Theme where
  /-- Titles and paths. -/
  header : Style := []
  /-- Failures. -/
  error : Style := []
  /-- Warnings. -/
  warn : Style := []
  /-- Places in a text. -/
  location : Style := []
  /-- Prose. -/
  text : Style := []
  /-- Labels. -/
  dim : Style := []
  deriving DecidableEq, Repr, Inhabited

namespace Theme

/-- No attributes. -/
def plain : Theme := {}

/-- Bold cyan titles, bold red failures, bold yellow warnings, and the rest in one colour each. -/
def colored : Theme where
  header := [36, 1]
  error := [31, 1]
  warn := [33, 1]
  location := [35]
  text := [37]
  dim := [90]

end Theme

end DocProse
