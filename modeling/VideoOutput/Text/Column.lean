/-!
# Columns

Texts filled up with spaces to the width of a column. A text that is wider stays as it is. The width
is counted in characters, which is enough for the names and the numbers that stand in columns here.
-/

namespace VideoOutput.Text

/-- The text at the left edge of a column. -/
def alignLeft (width : Nat) (s : String) : String :=
  String.ofList (s.toList.rightpad width ' ')

/-- The text at the right edge of a column. -/
def alignRight (width : Nat) (s : String) : String :=
  String.ofList (s.toList.leftpad width ' ')

end VideoOutput.Text
