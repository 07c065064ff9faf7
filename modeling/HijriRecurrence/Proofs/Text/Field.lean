import HijriRecurrence.Text.Blank
import Mathlib.Data.List.Basic
import Mathlib.Data.List.TakeWhile

/-!
# Fields of a text

A field is a text that comes through unharmed as a piece between semicolons on a line of its own: it
has no semicolon and no line boundary, and no blanks around it (`IsField`).

* `trim_eq_self` — what has no blank at either end is what trimming leaves alone;
* `lines_append` — a line ends where its boundary stands;
* `isField_trim` — what is cut out of a line between semicolons and trimmed is a field;
* `isField_of_solid` — so is a text of characters that are neither blank nor semicolons.
-/

namespace HijriRecurrence.Text

/-- What holds of every character of a text is decided along the text, not along all characters
there are. -/
instance (priority := 2000) decidableForallMemText {P : Char → Prop} [DecidablePred P]
    (text : List Char) : Decidable (∀ c ∈ text, P c) := List.decidableBAll P text

/-! ### Blanks at the ends -/

/-- Whatever ends a line is blank. -/
theorem isBlank_of_isLineBoundary {c : Char} (h : isLineBoundary c = true) : isBlank c = true := by
  simp only [isLineBoundary, isBlank, Bool.or_eq_true, Bool.and_eq_true, decide_eq_true_eq,
    beq_iff_eq] at h ⊢
  omega

theorem isLineBoundary_of_not_isBlank {c : Char} (h : isBlank c = false) :
    isLineBoundary c = false := by
  by_contra hboundary
  rw [isBlank_of_isLineBoundary (by simpa using hboundary)] at h
  cases h

theorem head?_dropWhile_isBlank {text : List Char} {c : Char}
    (h : c ∈ (text.dropWhile isBlank).head?) : isBlank c = false := by
  have hhead := List.head?_dropWhile_not isBlank text
  rw [h] at hhead
  exact hhead

/-- Trimming the end of a text keeps its front. -/
theorem exists_trimRight_append (text : List Char) : ∃ rest, trimRight text ++ rest = text := by
  have hfront : trimRight text <+: text := by
    rw [trimRight, ← List.reverse_suffix, List.reverse_reverse]
    exact List.dropWhile_suffix isBlank
  exact hfront

theorem mem_of_mem_trimRight {text : List Char} {c : Char} (h : c ∈ trimRight text) : c ∈ text := by
  obtain ⟨rest, hrest⟩ := exists_trimRight_append text
  exact hrest ▸ List.mem_append_left rest h

/-- Trimming takes characters away and adds none. -/
theorem mem_of_mem_trim {text : List Char} {c : Char} (h : c ∈ trim text) : c ∈ text :=
  (List.dropWhile_sublist isBlank).subset (mem_of_mem_trimRight h)

/-- A text without a blank at its end is what trimming its end leaves alone. -/
theorem trimRight_eq_self {text : List Char} (h : ∀ c ∈ text.getLast?, isBlank c = false) :
    trimRight text = text := by
  rw [List.getLast?_eq_head?_reverse] at h
  unfold trimRight
  cases hreverse : text.reverse with
  | nil => rw [List.reverse_eq_nil_iff.1 hreverse]; rfl
  | cons c rest =>
    rw [hreverse] at h
    rw [List.dropWhile_cons_of_neg (by simp [h c rfl]), ← hreverse, List.reverse_reverse]

/-- A text without blanks at its ends is what trimming leaves alone. -/
theorem trim_eq_self {text : List Char} (hhead : ∀ c ∈ text.head?, isBlank c = false)
    (hlast : ∀ c ∈ text.getLast?, isBlank c = false) : trim text = text := by
  cases text with
  | nil => rfl
  | cons c rest =>
    rw [trim, List.dropWhile_cons_of_neg (by simp [hhead c rfl])]
    exact trimRight_eq_self hlast

theorem trim_eq_self_of_forall {text : List Char} (h : ∀ c ∈ text, isBlank c = false) :
    trim text = text :=
  trim_eq_self (fun c hc => h c (List.mem_of_mem_head? hc))
    (fun c hc => h c (List.mem_of_mem_getLast? hc))

/-- A trimmed text does not start with a blank. -/
theorem head?_trim {text : List Char} {c : Char} (h : c ∈ (trim text).head?) :
    isBlank c = false := by
  obtain ⟨rest, hrest⟩ := exists_trimRight_append (text.dropWhile isBlank)
  have hhead : (trimRight (text.dropWhile isBlank)).head? = some c := h
  refine head?_dropWhile_isBlank (show (text.dropWhile isBlank).head? = some c from ?_)
  rw [← hrest, List.head?_append, hhead]
  rfl

/-- A trimmed text does not end with a blank. -/
theorem getLast?_trim {text : List Char} {c : Char} (h : c ∈ (trim text).getLast?) :
    isBlank c = false := by
  rw [List.getLast?_eq_head?_reverse, trim, trimRight, List.reverse_reverse] at h
  exact head?_dropWhile_isBlank h

@[simp] theorem trim_trim (text : List Char) : trim (trim text) = trim text :=
  trim_eq_self (fun _ h => head?_trim h) (fun _ h => getLast?_trim h)

/-! ### Lines -/

theorem mem_consFirst {c : Char} {pieces : List (List Char)} {piece : List Char}
    (h : piece ∈ consFirst c pieces) :
    (∃ rest, piece = c :: rest ∧ (rest = [] ∨ rest ∈ pieces)) ∨ piece ∈ pieces := by
  cases pieces with
  | nil =>
    obtain rfl := List.mem_singleton.1 h
    exact .inl ⟨[], rfl, .inl rfl⟩
  | cons first others =>
    rcases List.mem_cons.1 h with rfl | hmem
    · exact .inl ⟨first, rfl, .inr List.mem_cons_self⟩
    · exact .inr (List.mem_cons_of_mem first hmem)

/-- A line holds no line boundary. -/
theorem isLineBoundary_of_mem_lines {text line : List Char} (h : line ∈ lines text) {c : Char}
    (hc : c ∈ line) : isLineBoundary c = false := by
  induction text using lines.induct generalizing line with
  | case1 => exact absurd h List.not_mem_nil
  | case2 rest ih =>
    rcases List.mem_cons.1 h with rfl | hmem
    · exact absurd hc List.not_mem_nil
    · exact ih hmem hc
  | case3 d rest hpair hd ih =>
    rw [lines.eq_3 d rest hpair, if_pos hd] at h
    rcases List.mem_cons.1 h with rfl | hmem
    · exact absurd hc List.not_mem_nil
    · exact ih hmem hc
  | case4 d rest hpair hd ih =>
    rw [lines.eq_3 d rest hpair, if_neg hd] at h
    rcases mem_consFirst h with ⟨tail, rfl, htail⟩ | hmem
    · rcases List.mem_cons.1 hc with rfl | hc
      · simpa using hd
      · rcases htail with rfl | htail
        · exact absurd hc List.not_mem_nil
        · exact ih htail hc
    · exact ih hmem hc

theorem lines_cons {c : Char} (hc : isLineBoundary c = false) (rest : List Char) :
    lines (c :: rest) = consFirst c (lines rest) := by
  have hpair : ∀ others, c = '\r' → rest = '\n' :: others → False := by
    intro others hreturn
    rw [hreturn] at hc
    exact absurd hc (by decide)
  rw [lines.eq_3 c rest hpair, if_neg (by simp [hc])]

/-- A line ends where its boundary stands, however the boundary is written. -/
theorem lines_append_tail {line tail rest : List Char} (h : ∀ c ∈ line, isLineBoundary c = false)
    (htail : lines tail = [] :: lines rest) : lines (line ++ tail) = line :: lines rest := by
  induction line with
  | nil => exact htail
  | cons c line ih =>
    rw [List.cons_append, lines_cons (h c List.mem_cons_self),
      ih fun d hd => h d (List.mem_cons_of_mem c hd)]
    rfl

theorem lines_append {line : List Char} (h : ∀ c ∈ line, isLineBoundary c = false)
    (rest : List Char) : lines (line ++ '\n' :: rest) = line :: lines rest :=
  lines_append_tail h rfl

/-- A text without a line boundary is one line. -/
theorem lines_eq_singleton {line : List Char} (hne : line ≠ [])
    (h : ∀ c ∈ line, isLineBoundary c = false) : lines line = [line] := by
  induction line with
  | nil => exact absurd rfl hne
  | cons c line ih =>
    rw [lines_cons (h c List.mem_cons_self)]
    cases line with
    | nil => rfl
    | cons d line =>
      rw [ih (by simp) fun e he => h e (List.mem_cons_of_mem c he)]
      rfl

/-! ### Pieces -/

/-- A piece has no separator in it, and no character that the text does not have. -/
theorem mem_splitOn {separator : Char} {text piece : List Char}
    (h : piece ∈ splitOn separator text) : separator ∉ piece ∧ ∀ c ∈ piece, c ∈ text := by
  induction text generalizing piece with
  | nil =>
    obtain rfl := List.mem_singleton.1 h
    exact ⟨List.not_mem_nil, fun _ hc => hc⟩
  | cons d rest ih =>
    rw [splitOn] at h
    split at h
    · rcases List.mem_cons.1 h with rfl | hmem
      · exact ⟨List.not_mem_nil, fun _ hc => absurd hc List.not_mem_nil⟩
      · exact ⟨(ih hmem).1, fun c hc => List.mem_cons_of_mem d ((ih hmem).2 c hc)⟩
    · rename_i hd
      rcases mem_consFirst h with ⟨tail, rfl, rfl | htail⟩ | hmem
      · simp [Ne.symm hd]
      · refine ⟨?_, fun c hc => ?_⟩
        · simp [Ne.symm hd, (ih htail).1]
        · rcases List.mem_cons.1 hc with rfl | hc
          · exact List.mem_cons_self
          · exact List.mem_cons_of_mem d ((ih htail).2 c hc)
      · exact ⟨(ih hmem).1, fun c hc => List.mem_cons_of_mem d ((ih hmem).2 c hc)⟩

/-- What stands before the first separator is part of the text. -/
theorem mem_of_mem_cutAt_fst {separator : Char} {text before : List Char}
    (hcut : (cutAt separator text).1 = before) {c : Char} (h : c ∈ before) : c ∈ text := by
  induction text generalizing before with
  | nil =>
    rw [← hcut] at h
    exact absurd h List.not_mem_nil
  | cons d rest ih =>
    rw [cutAt] at hcut
    split at hcut
    · rw [← hcut] at h
      exact absurd h List.not_mem_nil
    · rw [← hcut] at h
      rcases List.mem_cons.1 h with rfl | hmem
      · exact List.mem_cons_self
      · exact List.mem_cons_of_mem d (ih rfl hmem)

/-- What stands after the first separator is part of the text. -/
theorem mem_of_mem_cutAt_snd {separator : Char} {text after : List Char}
    (hcut : (cutAt separator text).2 = some after) {c : Char} (h : c ∈ after) : c ∈ text := by
  induction text with
  | nil => cases hcut
  | cons d rest ih =>
    rw [cutAt] at hcut
    split at hcut
    · obtain rfl := Option.some.inj hcut
      exact List.mem_cons_of_mem d h
    · exact List.mem_cons_of_mem d (ih hcut)

theorem mem_joinWith {separator : List Char} {pieces : List (List Char)} {c : Char}
    (h : c ∈ joinWith separator pieces) : c ∈ separator ∨ ∃ piece ∈ pieces, c ∈ piece := by
  induction pieces with
  | nil => exact absurd h List.not_mem_nil
  | cons piece rest ih =>
    cases rest with
    | nil => exact .inr ⟨piece, List.mem_cons_self, h⟩
    | cons next rest =>
      rw [joinWith, List.append_assoc, List.mem_append, List.mem_append] at h
      rcases h with hpiece | hseparator | hrest
      · exact .inr ⟨piece, List.mem_cons_self, hpiece⟩
      · exact .inl hseparator
      · rcases ih hrest with hseparator | ⟨other, hother, hc⟩
        · exact .inl hseparator
        · exact .inr ⟨other, List.mem_cons_of_mem piece hother, hc⟩

/-- Joined pieces end as the last of them does. -/
theorem getLast?_joinWith {separator : List Char} {pieces : List (List Char)}
    (hne : ∀ piece ∈ pieces, piece ≠ []) {c : Char}
    (h : c ∈ (joinWith separator pieces).getLast?) : ∃ piece ∈ pieces, c ∈ piece.getLast? := by
  induction pieces with
  | nil => exact absurd h (by simp [joinWith])
  | cons piece rest ih =>
    cases rest with
    | nil => exact ⟨piece, List.mem_cons_self, h⟩
    | cons next rest =>
      have hrest : joinWith separator (next :: rest) ≠ [] := by
        have hnext := hne next (by simp)
        cases rest with
        | nil => exact hnext
        | cons => simp [joinWith, hnext]
      rw [joinWith, List.getLast?_append_of_ne_nil _ hrest] at h
      obtain ⟨other, hother, hc⟩ := ih (fun p hp => hne p (List.mem_cons_of_mem piece hp)) h
      exact ⟨other, List.mem_cons_of_mem piece hother, hc⟩

/-! ### Fields -/

/-- A text that comes through unharmed as a piece between semicolons on a line of its own. -/
structure IsField (text : List Char) : Prop where
  semicolon : ';' ∉ text
  boundary : ∀ c ∈ text, isLineBoundary c = false
  trimmed : trim text = text

/-- What is cut out of a line between semicolons and trimmed is a field. -/
theorem isField_trim {text : List Char} (hsemicolon : ';' ∉ text)
    (hboundary : ∀ c ∈ text, isLineBoundary c = false) : IsField (trim text) where
  semicolon h := hsemicolon (mem_of_mem_trim h)
  boundary c h := hboundary c (mem_of_mem_trim h)
  trimmed := trim_trim text

/-- Whether a character is neither blank nor a semicolon. -/
def isSolid (c : Char) : Bool := !isBlank c && c != ';'

theorem isBlank_of_isSolid {c : Char} (h : isSolid c = true) : isBlank c = false := by
  simp only [isSolid, Bool.and_eq_true, Bool.not_eq_true'] at h
  exact h.1

/-- A text of characters that are neither blank nor semicolons is a field. -/
theorem isField_of_solid {text : List Char} (h : ∀ c ∈ text, isSolid c = true) : IsField text where
  semicolon hmem := absurd (h ';' hmem) (by decide)
  boundary c hmem := isLineBoundary_of_not_isBlank (isBlank_of_isSolid (h c hmem))
  trimmed := trim_eq_self_of_forall fun c hmem => isBlank_of_isSolid (h c hmem)

/-- A field with solid characters before it is a field. -/
theorem IsField.append {front text : List Char} (hfront : ∀ c ∈ front, isSolid c = true)
    (hne : text ≠ []) (h : IsField text) : IsField (front ++ text) := by
  have hsolid := isField_of_solid hfront
  refine ⟨?_, ?_, trim_eq_self ?_ ?_⟩
  · simp [hsolid.semicolon, h.semicolon]
  · intro c hc
    rcases List.mem_append.1 hc with hc | hc
    · exact hsolid.boundary c hc
    · exact h.boundary c hc
  · intro c hc
    cases front with
    | nil =>
      rw [List.nil_append, ← h.trimmed] at hc
      exact head?_trim hc
    | cons d rest =>
      obtain rfl := Option.some.inj hc
      exact isBlank_of_isSolid (hfront d List.mem_cons_self)
  · intro c hc
    rw [List.getLast?_append_of_ne_nil _ hne, ← h.trimmed] at hc
    exact getLast?_trim hc

end HijriRecurrence.Text
