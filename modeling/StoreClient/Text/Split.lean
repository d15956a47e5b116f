/-!
# Parts of a text

A text is cut at every separator. There is always one part more than there are separators.
-/

namespace StoreClient.Text

/-- Puts a character in front of the first part, or starts a new part at a separator. -/
def splitStep (separator c : Char) (parts : List (List Char)) : List (List Char) :=
  if c = separator then [] :: parts
  else
    match parts with
    | [] => [[c]]
    | part :: rest => (c :: part) :: rest

/-- The parts of a text between separators. -/
def splitOn (separator : Char) (text : List Char) : List (List Char) :=
  text.foldr (splitStep separator) [[]]

@[simp] theorem splitOn_nil (separator : Char) : splitOn separator [] = [[]] := rfl

theorem splitOn_cons (separator c : Char) (text : List Char) :
    splitOn separator (c :: text) = splitStep separator c (splitOn separator text) := rfl

end StoreClient.Text
