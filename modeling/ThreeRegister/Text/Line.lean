import ThreeRegister.Text

namespace ThreeRegister

namespace Text

def rawLines (s : Text) : List Text :=
  let pieces := s.splitOn newline
  if pieces.getLast? = some [] then pieces.dropLast else pieces

def lineContent (line : Text) : Text :=
  if line.getLast? = some carriageReturn then line.dropLast else line

end Text

end ThreeRegister
