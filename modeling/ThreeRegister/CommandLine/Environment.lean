import ThreeRegister.Text.Casing

namespace ThreeRegister

namespace CommandLine

abbrev Environment := List (Text × Text)

namespace Environment

def value? (env : Environment) (name : String) : Option Text :=
  ((env.reverse.find? fun p => p.1 = utf8 name).map (·.2)).filter (!·.isEmpty)

def affirmativeWords : List String :=
  ["absolutely", "affirmative", "enable", "enabled", "positive", "t", "true", "y", "yes"]

def capitalized (s : Text) : Text :=
  Text.toUpper (s.take 1) ++ s.drop 1

def isAffirmative (value : Text) : Bool :=
  value = utf8 "1" || affirmativeWords.any fun s =>
    let word := utf8 s
    value = word || value = word.toUpper || value = capitalized word

end Environment

end CommandLine

end ThreeRegister
