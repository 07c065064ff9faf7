/-!
# Blanks, lines and separators

Rule text is cut at lines, semicolons, commas, colons and equals signs, and blanks around each piece
are dropped.  All of it works on lists of characters:

* `trim` drops blanks at both ends, `trimRight` at the end;
* `lines` cuts at line boundaries, a carriage return with its line feed being one boundary, and a
  boundary at the very end opens no further line;
* `splitOn` cuts at every separator, `cutAt` at the first one;
* `splitOn_joinWith` says that cutting undoes joining.
-/

namespace HijriRecurrence.Text

/-- Whether a character is blank: a space of any width, a tabulator, or a line boundary. -/
def isBlank (c : Char) : Bool :=
  let n := c.toNat
  (9 ≤ n && n ≤ 13) || (28 ≤ n && n ≤ 32) || n == 133 || n == 160 || n == 5760
    || (8192 ≤ n && n ≤ 8202) || n == 8232 || n == 8233 || n == 8239 || n == 8287 || n == 12288

def isLineBoundary (c : Char) : Bool :=
  let n := c.toNat
  (10 ≤ n && n ≤ 13) || (28 ≤ n && n ≤ 30) || n == 133 || n == 8232 || n == 8233

def trimRight (text : List Char) : List Char := (text.reverse.dropWhile isBlank).reverse

def trim (text : List Char) : List Char := trimRight (text.dropWhile isBlank)

/-- Puts a character before the first piece, which is opened when there is none. -/
def consFirst (c : Char) : List (List Char) → List (List Char)
  | [] => [[c]]
  | piece :: pieces => (c :: piece) :: pieces

/-- The lines of a text, without their boundaries. -/
def lines : List Char → List (List Char)
  | [] => []
  | '\r' :: '\n' :: rest => [] :: lines rest
  | c :: rest => if isLineBoundary c then [] :: lines rest else consFirst c (lines rest)

/-- The pieces of a text between its separators: one more than there are separators. -/
def splitOn (separator : Char) : List Char → List (List Char)
  | [] => [[]]
  | c :: rest =>
    if c = separator then [] :: splitOn separator rest
    else consFirst c (splitOn separator rest)

/-- What stands before the first separator and, when there is one, what stands after it. -/
def cutAt (separator : Char) : List Char → List Char × Option (List Char)
  | [] => ([], none)
  | c :: rest =>
    if c = separator then ([], some rest)
    else (c :: (cutAt separator rest).1, (cutAt separator rest).2)

/-- Joins pieces with a separator between every two. -/
def joinWith (separator : List Char) : List (List Char) → List Char
  | [] => []
  | [piece] => piece
  | piece :: next :: pieces => piece ++ separator ++ joinWith separator (next :: pieces)

@[simp] theorem lines_nil : lines [] = [] := rfl

@[simp] theorem splitOn_nil (separator : Char) : splitOn separator [] = [[]] := rfl

theorem splitOn_of_not_mem {separator : Char} {text : List Char} (h : separator ∉ text) :
    splitOn separator text = [text] := by
  induction text with
  | nil => rfl
  | cons c rest ih =>
    simp only [List.mem_cons, not_or] at h
    rw [splitOn, if_neg (Ne.symm h.1), ih h.2]
    rfl

theorem splitOn_append {separator : Char} {piece : List Char} (h : separator ∉ piece)
    (rest : List Char) :
    splitOn separator (piece ++ separator :: rest) = piece :: splitOn separator rest := by
  induction piece with
  | nil => simp [splitOn]
  | cons c piece ih =>
    simp only [List.mem_cons, not_or] at h
    rw [List.cons_append, splitOn, if_neg (Ne.symm h.1), ih h.2]
    rfl

/-- Cutting at the separator undoes joining with it. -/
theorem splitOn_joinWith {separator : Char} {pieces : List (List Char)} (hne : pieces ≠ [])
    (h : ∀ piece ∈ pieces, separator ∉ piece) :
    splitOn separator (joinWith [separator] pieces) = pieces := by
  induction pieces with
  | nil => exact absurd rfl hne
  | cons piece rest ih =>
    have hp : separator ∉ piece := h piece (by simp)
    cases rest with
    | nil => rw [joinWith, splitOn_of_not_mem hp]
    | cons next rest =>
      have hr := ih (by simp) fun p hmem => h p (List.mem_cons_of_mem _ hmem)
      rw [joinWith, List.append_assoc, List.singleton_append, splitOn_append hp, hr]

theorem cutAt_append {separator : Char} {head : List Char} (h : separator ∉ head)
    (rest : List Char) : cutAt separator (head ++ separator :: rest) = (head, some rest) := by
  induction head with
  | nil => simp [cutAt]
  | cons c head ih =>
    simp only [List.mem_cons, not_or] at h
    simp [cutAt, ih h.2, Ne.symm h.1]

end HijriRecurrence.Text
