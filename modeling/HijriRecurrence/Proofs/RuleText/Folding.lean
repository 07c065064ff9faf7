import HijriRecurrence.Proofs.RuleText.SingleRule
import HijriRecurrence.Proofs.Tabular.Date

/-!
# Folded texts

A long line may be folded: it is cut after its first character, at as many places as one likes, and
what follows a cut goes on a line of its own behind a space or a tabulator.  `Folds` says which
texts come of some lines in this way, with line ends of either kind and empty lines in between.

Joining folded lines finds the lines again, as long as there is no blank in them
(`unfold_of_folds`).  The lines that have been joined are then the last ones of a growing list, and
`foldl_of_continues` says what a folded line adds to it.  So a folded text says what the text with
its lines says (`read_of_folds`).
-/

namespace HijriRecurrence

open Text

variable {ctx : Context}

/-! ### Texts without lines -/

namespace Text

theorem exists_mem_consFirst {c : Char} (d : Char) {pieces : List (List Char)}
    (h : c = d ∨ ∃ piece ∈ pieces, c ∈ piece) : ∃ piece ∈ consFirst d pieces, c ∈ piece := by
  cases pieces with
  | nil =>
    obtain rfl : c = d := by simpa using h
    exact ⟨[c], List.mem_singleton_self _, List.mem_singleton_self c⟩
  | cons first others =>
    rcases h with rfl | ⟨piece, hpiece, hc⟩
    · exact ⟨c :: first, List.mem_cons_self, List.mem_cons_self⟩
    · rcases List.mem_cons.1 hpiece with rfl | hothers
      · exact ⟨d :: piece, List.mem_cons_self, List.mem_cons_of_mem d hc⟩
      · exact ⟨piece, List.mem_cons_of_mem _ hothers, hc⟩

/-- A character that ends no line is in one. -/
theorem exists_mem_lines {text : List Char} {c : Char} (hc : c ∈ text)
    (hboundary : isLineBoundary c = false) : ∃ line ∈ lines text, c ∈ line := by
  have hne {d : Char} (hd : isLineBoundary d = true) : c ≠ d := by
    rintro rfl
    rw [hboundary] at hd
    cases hd
  induction text using lines.induct with
  | case1 => exact absurd hc List.not_mem_nil
  | case2 rest ih =>
    have hrest := (List.mem_cons.1 hc).resolve_left (hne rfl)
    obtain ⟨line, hline, hmem⟩ := ih ((List.mem_cons.1 hrest).resolve_left (hne rfl))
    exact ⟨line, List.mem_cons_of_mem [] hline, hmem⟩
  | case3 d rest hpair hd ih =>
    obtain ⟨line, hline, hmem⟩ := ih ((List.mem_cons.1 hc).resolve_left (hne hd))
    rw [lines.eq_3 d rest hpair, if_pos hd]
    exact ⟨line, List.mem_cons_of_mem [] hline, hmem⟩
  | case4 d rest hpair hd ih =>
    rw [lines.eq_3 d rest hpair, if_neg hd]
    exact exists_mem_consFirst d ((List.mem_cons.1 hc).imp_right ih)

end Text

namespace RuleText

/-- A text without lines to keep is blank. -/
theorem plainLines_eq_nil_iff {text : List Char} : plainLines text = [] ↔ trim text = [] := by
  constructor
  · intro h
    refine trim_eq_nil_iff.2 fun c hc => ?_
    by_contra hblank
    have hblank : isBlank c = false := by simpa using hblank
    obtain ⟨line, hline, hmem⟩ := exists_mem_lines hc (isLineBoundary_of_not_isBlank hblank)
    have htrim : trim line = [] := by simpa using List.filter_eq_nil_iff.1 h line hline
    rw [trim_eq_nil_iff.1 htrim c hmem] at hblank
    cases hblank
  · intro h
    by_contra hlines
    have hblank := not_blank_of_plainLines hlines
    rw [h] at hblank
    cases hblank

/-! ### Ways to fold -/

/-- How a line of a folded text ends. -/
inductive IsLineEnd : List Char → Prop
  | feed : IsLineEnd ['\n']
  | returnFeed : IsLineEnd ['\r', '\n']

/-- What a line of a folded text starts with when it continues the line before it. -/
def IsMark (c : Char) : Prop := c = ' ' ∨ c = '\t'

/-- The rest of a line, written on from where it starts: whole, or cut once and continued behind a
mark.  A cut may leave nothing before it or nothing after it. -/
inductive Continues : List Char → List Char → Prop
  | whole (rest : List Char) : Continues rest rest
  | cut {ending rest written : List Char} {mark : Char} (piece : List Char) :
      IsLineEnd ending → IsMark mark → Continues rest written →
      Continues (piece ++ rest) (piece ++ (ending ++ mark :: written))

/-- A text in which some lines are written in their order, each folded anywhere after its first
character, with empty lines before and after them; the last line may do without an end. -/
inductive Folds : List (List Char) → List Char → Prop
  | none : Folds [] []
  | emptyLine {ending text : List Char} {found : List (List Char)} :
      IsLineEnd ending → Folds found text → Folds found (ending ++ text)
  | lastLine {rest written : List Char} (first : Char) :
      Continues rest written → Folds [first :: rest] (first :: written)
  | line {ending rest text written : List Char} {found : List (List Char)} (first : Char) :
      Continues rest written → IsLineEnd ending → Folds found text →
      Folds ((first :: rest) :: found) (first :: written ++ (ending ++ text))

theorem IsLineEnd.lines_append {ending : List Char} (h : IsLineEnd ending) (text : List Char) :
    lines (ending ++ text) = [] :: lines text := by
  cases h with
  | feed => rfl
  | returnFeed => rfl

theorem IsLineEnd.isBlank {ending : List Char} (h : IsLineEnd ending) :
    ∀ c ∈ ending, isBlank c = true := by
  cases h with
  | feed => decide
  | returnFeed => decide

theorem IsMark.isLineBoundary {mark : Char} (h : IsMark mark) : isLineBoundary mark = false := by
  rcases h with rfl | rfl <;> decide

/-! ### Joining lines -/

variable {done : List (List Char)}

/-- An empty line is left out. -/
theorem unfoldLine_nil : unfoldLine done [] = done := by
  simp [unfoldLine, trim, trimRight]

/-- A line that starts with a mark is joined to the last one. -/
theorem unfoldLine_mark {mark : Char} (h : IsMark mark) (last piece : List Char) :
    unfoldLine (done ++ [last]) (mark :: piece) = done ++ [last ++ piece] := by
  rcases h with rfl | rfl <;> simp [unfoldLine]

/-- A line without blanks is a line of its own. -/
theorem unfoldLine_of_not_blank {line : List Char} (hne : line ≠ [])
    (h : ∀ c ∈ line, isBlank c = false) : unfoldLine done line = done ++ [line] := by
  have htrim : trim line = line := trim_eq_self_of_forall h
  have hright : trimRight line = line :=
    trimRight_eq_self fun c hc => h c (List.mem_of_mem_getLast? hc)
  unfold unfoldLine
  split
  · exact absurd (h ' ' List.mem_cons_self) (by decide)
  · exact absurd (h '\t' List.mem_cons_self) (by decide)
  · rw [htrim, hright, if_neg (by simpa using hne)]

/-- **A folded line is joined to what it was before it was cut.**  The line goes on in a text whose
lines after it are known; what has been read of its first line makes up the last of the joined
lines, and whatever else that line holds is put behind it. -/
theorem foldl_of_continues {rest written : List Char} (h : Continues rest written)
    (hrest : ∀ c ∈ rest, isBlank c = false) {tail : List Char} {next : List (List Char)}
    (htail : ∀ line, line ≠ [] → (∀ c ∈ line, isLineBoundary c = false) →
      lines (line ++ tail) = line :: next)
    {head last : List Char} (hne : head ≠ []) (hhead : ∀ c ∈ head, isLineBoundary c = false)
    {start : List (List Char)}
    (hread : ∀ piece, (∀ c ∈ piece, isBlank c = false) →
      unfoldLine start (head ++ piece) = done ++ [last ++ piece]) :
    (lines (head ++ (written ++ tail))).foldl unfoldLine start =
      next.foldl unfoldLine (done ++ [last ++ rest]) := by
  induction h generalizing head last start with
  | whole rest =>
    have hline : ∀ c ∈ head ++ rest, isLineBoundary c = false := fun c hc =>
      (List.mem_append.1 hc).elim (hhead c)
        fun hmem => isLineBoundary_of_not_isBlank (hrest c hmem)
    rw [← List.append_assoc, htail _ (List.append_ne_nil_of_left_ne_nil hne rest) hline,
      List.foldl_cons, hread rest hrest]
  | @cut ending rest written mark piece hend hmark _ ih =>
    obtain ⟨hpiece, hothers⟩ := List.forall_mem_append.1 hrest
    have hline : ∀ c ∈ head ++ piece, isLineBoundary c = false := fun c hc =>
      (List.mem_append.1 hc).elim (hhead c)
        fun hmem => isLineBoundary_of_not_isBlank (hpiece c hmem)
    have hcut : lines (head ++ (piece ++ (ending ++ mark :: written) ++ tail)) =
        (head ++ piece) :: lines ([mark] ++ (written ++ tail)) := by
      rw [← lines_append_tail hline (hend.lines_append _)]
      simp
    have hjoin : (lines ([mark] ++ (written ++ tail))).foldl unfoldLine (done ++ [last ++ piece]) =
        next.foldl unfoldLine (done ++ [last ++ piece ++ rest]) :=
      ih hothers (List.cons_ne_nil mark [])
        (fun c hc => (List.mem_singleton.1 hc) ▸ hmark.isLineBoundary)
        fun others _ => unfoldLine_mark hmark (last ++ piece) others
    rw [hcut, List.foldl_cons, hread piece hpiece, hjoin, List.append_assoc]

/-- **The lines of a folded text are found again.** -/
theorem foldl_of_folds {found : List (List Char)} {text : List Char} (h : Folds found text)
    (hclean : ∀ line ∈ found, ∀ c ∈ line, isBlank c = false) (done : List (List Char)) :
    (lines text).foldl unfoldLine done = done ++ found := by
  have hread {first : Char} (hfirst : isBlank first = false) (done : List (List Char))
      (piece : List Char) (hpiece : ∀ c ∈ piece, isBlank c = false) :
      unfoldLine done ([first] ++ piece) = done ++ [[first] ++ piece] :=
    unfoldLine_of_not_blank (List.cons_ne_nil first piece)
      (List.forall_mem_cons.2 ⟨hfirst, hpiece⟩)
  induction h generalizing done with
  | none => simp
  | @emptyLine ending text found hend _ ih =>
    rw [hend.lines_append, List.foldl_cons, unfoldLine_nil, ih hclean]
  | @lastLine rest written first hcontinues =>
    obtain ⟨hfirst, hrest⟩ := List.forall_mem_cons.1 (hclean _ List.mem_cons_self)
    have hjoin : (lines ([first] ++ (written ++ []))).foldl unfoldLine done =
        List.foldl unfoldLine (done ++ [[first] ++ rest]) [] :=
      foldl_of_continues hcontinues hrest
        (fun line hne hline => by rw [List.append_nil, lines_eq_singleton hne hline])
        (List.cons_ne_nil first [])
        (fun c hc => (List.mem_singleton.1 hc) ▸ isLineBoundary_of_not_isBlank hfirst)
        (hread hfirst done)
    simpa using hjoin
  | @line ending rest text written found first hcontinues hend _ ih =>
    obtain ⟨hline, hothers⟩ := List.forall_mem_cons.1 hclean
    obtain ⟨hfirst, hrest⟩ := List.forall_mem_cons.1 hline
    have hjoin := foldl_of_continues hcontinues hrest
      (fun line _ hline => lines_append_tail hline (hend.lines_append text))
      (List.cons_ne_nil first [])
      (fun c hc => (List.mem_singleton.1 hc) ▸ isLineBoundary_of_not_isBlank hfirst)
      (hread hfirst done)
    have hsplit : first :: written ++ (ending ++ text) =
        [first] ++ (written ++ (ending ++ text)) := rfl
    rw [hsplit, hjoin, ih hothers, List.append_assoc]
    rfl

theorem unfold_of_folds {found : List (List Char)} {text : List Char} (h : Folds found text)
    (hclean : ∀ line ∈ found, ∀ c ∈ line, isBlank c = false) : unfold text = found :=
  foldl_of_folds h hclean []

/-- A folded text without lines is blank, and no other is. -/
theorem trim_of_folds {found : List (List Char)} {text : List Char} (h : Folds found text)
    (hclean : ∀ line ∈ found, ∀ c ∈ line, isBlank c = false) : trim text = [] ↔ found = [] := by
  have hstart {first : Char} {rest : List Char} (hfirst : isBlank first = false) :
      trim (first :: rest) ≠ [] := by
    intro htrim
    rw [trim_eq_nil_iff.1 htrim first List.mem_cons_self] at hfirst
    cases hfirst
  induction h with
  | none => simp [trim, trimRight]
  | @emptyLine ending text found hend _ ih =>
    refine Iff.trans ?_ (ih hclean)
    rw [trim_eq_nil_iff, trim_eq_nil_iff, List.forall_mem_append]
    exact and_iff_right hend.isBlank
  | lastLine first _ =>
    have hfirst := hclean _ List.mem_cons_self first List.mem_cons_self
    exact iff_of_false (hstart hfirst) (List.cons_ne_nil _ _)
  | line first _ _ _ _ =>
    have hfirst := hclean _ List.mem_cons_self first List.mem_cons_self
    exact iff_of_false (hstart hfirst) (List.cons_ne_nil _ _)

/-! ### What a folded text says -/

/-- Building rules takes no notice of whether lines were joined. -/
theorem addRules_unfolds {how : Reading} (unfolds : Bool) (p : Properties)
    (add : RuleSet → Rule → RuleSet) (s : RuleSet) (ruleLines : List (List Char)) :
    addRules ctx { how with unfolds } p add s ruleLines = addRules ctx how p add s ruleLines := by
  induction ruleLines generalizing s with
  | nil => rfl
  | cons line rest ih =>
    rw [addRules, addRules]
    exact congrArg _ (funext fun rule => ih (add s rule))

theorem buildSet_unfolds {how : Reading} (unfolds : Bool) (p : Properties) :
    buildSet ctx { how with unfolds } p = buildSet ctx how p := by
  simp only [buildSet, addRules_unfolds]

/-- **Folding changes nothing of what a text says.**  Take a text whose lines, blank ones apart,
have no blanks in them, and fold these lines in any way.  Reading the folded text with its lines
joined comes to the same rule, the same set or the same error as reading the text itself. -/
theorem read_of_folds (ctx : Context) (how : Reading) {text folded : List Char}
    (hclean : ∀ line ∈ plainLines text, ∀ c ∈ line, isBlank c = false)
    (hfolds : Folds (plainLines text) folded) :
    read ctx folded { how with unfolds := true } = read ctx text { how with unfolds := false } := by
  have hblank : trim folded = [] ↔ trim text = [] :=
    (trim_of_folds hfolds hclean).trans plainLines_eq_nil_iff
  have hempty : (trim folded).isEmpty = (trim text).isEmpty := by
    rw [Bool.eq_iff_iff, List.isEmpty_iff, List.isEmpty_iff, hblank]
  have hlines : unfold folded = plainLines text := unfold_of_folds hfolds hclean
  simp only [read, hempty, hlines, buildSet_unfolds, if_true, Bool.false_eq_true, if_false]
  rfl

def threeDays : List Char :=
  "DTSTART;CALENDAR=HIJRI-TABULAR:14460901\nRRULE:FREQ=DAILY;COUNT=3".toList

/-- The same rule, cut within a parameter, within the date, twice at one place, and before an equals
sign, with an empty line between its two lines. -/
def threeDaysFolded : List Char :=
  ("DTSTART;CALEN\r\n\tDAR=HIJRI-TABULAR:1446\r\n \r\n 0901\r\n\r\n" ++
    "RRULE:FREQ\n =DAILY;COUNT=3").toList

theorem folds_threeDays : Folds (plainLines threeDays) threeDaysFolded := by
  have hlines : plainLines threeDays =
      ['D' :: ("TSTART;CALEN".toList ++ ("DAR=HIJRI-TABULAR:1446".toList ++ "0901".toList)),
        'R' :: ("RULE:FREQ".toList ++ "=DAILY;COUNT=3".toList)] := by
    decide +kernel
  have hfolded : threeDaysFolded =
      'D' :: ("TSTART;CALEN".toList ++ (['\r', '\n'] ++ '\t' ::
        ("DAR=HIJRI-TABULAR:1446".toList ++ (['\r', '\n'] ++ ' ' ::
          ([] ++ (['\r', '\n'] ++ ' ' :: "0901".toList)))))) ++
      (['\r', '\n'] ++ (['\r', '\n'] ++
        'R' :: ("RULE:FREQ".toList ++ (['\n'] ++ ' ' :: "=DAILY;COUNT=3".toList)))) := by
    decide +kernel
  rw [hlines, hfolded]
  have hrule : Continues ("RULE:FREQ".toList ++ "=DAILY;COUNT=3".toList)
      ("RULE:FREQ".toList ++ (['\n'] ++ ' ' :: "=DAILY;COUNT=3".toList)) :=
    .cut _ .feed (.inl rfl) (.whole _)
  exact .line 'D'
    (.cut _ .returnFeed (.inr rfl) (.cut _ .returnFeed (.inl rfl)
      (.cut [] .returnFeed (.inl rfl) (.whole _))))
    .returnFeed (.emptyLine .returnFeed (.lastLine 'R' hrule))

/-- The folded rule is read, as the same rule. -/
theorem read_of_folds_threeDays :
    (∀ line ∈ plainLines threeDays, ∀ c ∈ line, isBlank c = false) ∧
      Folds (plainLines threeDays) threeDaysFolded ∧
      read .hostless threeDaysFolded { unfolds := true } = read .hostless threeDays {} ∧
      ((read .hostless threeDaysFolded { unfolds := true }).outcome .unknown).toOption.isSome := by
  have hclean : ∀ line ∈ plainLines threeDays, ∀ c ∈ line, isBlank c = false := by
    decide +kernel
  have hsame : read .hostless threeDaysFolded { unfolds := true } = read .hostless threeDays {} :=
    read_of_folds .hostless {} hclean folds_threeDays
  have hread : ((read .hostless threeDays {}).outcome .unknown).toOption.isSome := by
    decide +kernel
  refine ⟨hclean, folds_threeDays, hsame, ?_⟩
  rw [hsame]
  exact hread

end RuleText

end HijriRecurrence
