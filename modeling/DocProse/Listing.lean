import DocProse.Position
import DocProse.Text.Lines
import DocProse.Theme

/-!
# Listings

The lines in which comments, warnings and totals are shown.  A comment takes one
line per line of its prose: the first stands behind the span, which is padded to
twelve characters, and the others are indented by as much.
-/

namespace DocProse.Listing

/-- The width of a span. -/
def spanWidth : Nat := 12

/-- A text with spaces behind it up to a width. -/
def padEnd (width : Nat) (s : String) : String :=
  s ++ String.ofList (List.replicate (width - s.length) ' ')

/-- The line for a file. -/
def fileHeader (theme : Theme) (path : String) : String := "📄 " ++ theme.header.paint path

/-- The line for a failure. -/
def failure (theme : Theme) (label : String) : String := "❌ " ++ theme.error.paint label

/-- The line for a warning. -/
def warning (theme : Theme) (label : String) : String := "⚠️ " ++ theme.warn.paint label

/-- The lines of a title. -/
def sectionTitle (theme : Theme) (title : String) : List String :=
  ["", "━" ++ theme.header.paint title ++ "━"]

/-- A span, padded. -/
def location (theme : Theme) (span : Span) : String :=
  theme.location.paint (padEnd spanWidth span.text)

/-- The lines for a comment. -/
def comment (theme : Theme) (span : Span) (prose : String) : List String :=
  let shown := (Text.lines prose.toList).map String.ofList
  ("  " ++ location theme span ++ " " ++ theme.text.paint (shown.headD ""))
    :: shown.tail.map fun line => "  " ++ padEnd spanWidth "" ++ " " ++ theme.text.paint line

/-- The line for a total. -/
def summaryRow (theme : Theme) (label value : String) : String :=
  "  " ++ theme.dim.paint label ++ " " ++ value

end DocProse.Listing
