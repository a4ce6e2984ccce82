/-!
# Line ends

A text file may end its lines with a line feed, a carriage return or both; read as text, every
line ends with a line feed.
-/

namespace WavePlot.Text

/-- The text with every carriage return, and a line feed right behind it, made one line feed. -/
def unifyNewlines : List Char → List Char
  | [] => []
  | '\r' :: '\n' :: rest => '\n' :: unifyNewlines rest
  | '\r' :: rest => '\n' :: unifyNewlines rest
  | c :: rest => c :: unifyNewlines rest

end WavePlot.Text
