import BurnRate.Proofs.ScalarLines
import BurnRate.Yaml.Token.BlockScalar

/-!
Literal blocks are read back character by character, with the line ends behind them.
-/

namespace BurnRate.Yaml

variable {c : Char} {cs tail : List Char}

/-- What a block scalar has read, the last character first. -/
def BlockRead.all (r : BlockRead) : List Char := r.more ++ r.lineEnd ++ r.text

/-- What was read up to the start of a line, or up to a place inside its text. -/
structure BlockRead.UpTo (r : BlockRead) (inLine : Bool) (col : ℕ) : Prop where
  more (h : inLine = true) : r.more = []
  lineEnd (h : inLine = true) : r.lineEnd = []
  start (h : inLine = false) : col = 0

lemma BlockRead.upTo_start (r : BlockRead) : r.UpTo false 0 := ⟨nofun, nofun, fun _ => rfl⟩

section

variable {indent line col : ℕ} {r : BlockRead} {inLine : Bool}

/-- One step inside the text of a line. -/
lemma scanBlockLines_inLine :
    scanBlockLines ⟨true, indent⟩ r true line col (c :: cs) =
      if isBreak c then
        scanBlockLines ⟨true, indent⟩ { r with lineEnd := [c] } false (line + 1) 0 cs
      else scanBlockLines ⟨true, indent⟩ { r with text := c :: r.text } true line (col + 1) cs := by
  rw [scanBlockLines, if_pos rfl]

/-- One step before the text of a line. -/
lemma scanBlockLines_beforeText :
    scanBlockLines ⟨true, indent⟩ r false line col (c :: cs) =
      if col < indent && c == ' ' then scanBlockLines ⟨true, indent⟩ r false line (col + 1) cs
      else if col < indent && c == '\t' then none
      else if isBreak c then
        scanBlockLines ⟨true, indent⟩ { r with more := c :: r.more } false (line + 1) 0 cs
      else if col = indent then
        scanBlockLines ⟨true, indent⟩ { text := c :: r.all, blankStart := isSpacing c } true line
          (col + 1) cs
      else some (r, ⟨c :: cs, line, col⟩) := by
  rw [scanBlockLines, if_neg Bool.false_ne_true]
  simp only [BlockRead.join, BlockRead.all, Bool.not_true, Bool.false_and, Bool.false_eq_true,
    if_false]

lemma scanBlockLines_spaces (k : ℕ) (h : col + k ≤ indent) :
    scanBlockLines ⟨true, indent⟩ r false line col (spaces k ++ tail) =
      scanBlockLines ⟨true, indent⟩ r false line (col + k) tail := by
  induction k generalizing col with
  | zero => rfl
  | succ k ih =>
    have hlt : col < indent := by omega
    rw [spaces_succ, List.cons_append, scanBlockLines_beforeText, if_pos (by simp [hlt]),
      ih (by omega), Nat.add_right_comm, Nat.add_assoc]

lemma scanBlockLines_break (h : isBreak c = true) :
    scanBlockLines ⟨true, indent⟩ r false line 0 (c :: cs) =
      scanBlockLines ⟨true, indent⟩ { r with more := c :: r.more } false (line + 1) 0 cs := by
  have hs : c ≠ ' ' := by rintro rfl; simp [isBreak] at h
  have ht : c ≠ '\t' := by rintro rfl; simp [isBreak] at h
  simp [scanBlockLines_beforeText, h, hs, ht]

lemma scanBlockLines_start (h : isBreak c = false) :
    scanBlockLines ⟨true, indent⟩ r false line indent (c :: cs) =
      scanBlockLines ⟨true, indent⟩ { text := c :: r.all, blankStart := isSpacing c } true line
        (indent + 1) cs := by
  simp [scanBlockLines_beforeText, h]

/-- Nothing behind the block belongs to it, as it starts to the left. -/
lemma scanBlockLines_follows {margin : ℕ} (h : Follows margin tail) (hm : margin ≤ indent) :
    scanBlockLines ⟨true, indent⟩ r false line 0 tail = some (r, .atNext line tail) := by
  cases h with
  | done => simp [scanBlockLines]
  | line k c cs hk hs hb hc =>
    rw [Cursor.atNext_line line k hs, scanBlockLines_spaces k (by omega)]
    simp only [isSpacing, Bool.or_eq_false_iff] at hs
    simp [scanBlockLines_beforeText, hs.1, hs.2, hb, show k ≠ indent by omega]

/-- One character of a literal block is read, with the indentation in front of it. -/
lemma scanBlockLines_char (indent line : ℕ) (hr : r.UpTo inLine col) (c : Char)
    (cs tail : List Char) :
    ∃ r' line' col', line ≤ line' ∧ r'.all = c :: r.all ∧ r'.UpTo (!isBreak c) col' ∧
      scanBlockLines ⟨true, indent⟩ r inLine line col
          (indentLines indent (!inLine) (c :: cs) ++ tail) =
        scanBlockLines ⟨true, indent⟩ r' (!isBreak c) line' col'
          (indentLines indent (isBreak c) cs ++ tail) := by
  cases hb : isBreak c with
  | true =>
    rw [indentLines, if_pos hb, List.cons_append]
    cases inLine with
    | true =>
      refine ⟨{ r with lineEnd := [c] }, line + 1, 0, Nat.le_succ _, ?_, BlockRead.upTo_start _, ?_⟩
      · simp [BlockRead.all, hr.more rfl, hr.lineEnd rfl]
      · rw [scanBlockLines_inLine, if_pos hb]
        rfl
    | false =>
      obtain rfl := hr.start rfl
      refine ⟨{ r with more := c :: r.more }, line + 1, 0, Nat.le_succ _, ?_,
        BlockRead.upTo_start _, ?_⟩
      · simp [BlockRead.all]
      · rw [scanBlockLines_break hb]
        rfl
  | false =>
    rw [indentLines, if_neg (by simp [hb])]
    cases inLine with
    | true =>
      refine ⟨{ r with text := c :: r.text }, line, col + 1, Nat.le_refl _, ?_,
        ⟨fun _ => hr.more rfl, fun _ => hr.lineEnd rfl, fun h => by simp at h⟩, ?_⟩
      · simp [BlockRead.all, hr.more rfl, hr.lineEnd rfl]
      · simp only [Bool.not_true, Bool.false_eq_true, if_false, List.nil_append, List.cons_append]
        rw [scanBlockLines_inLine, if_neg (by simp [hb])]
        rfl
    | false =>
      obtain rfl := hr.start rfl
      refine ⟨{ text := c :: r.all, blankStart := isSpacing c }, line, indent + 1,
        Nat.le_refl _, ?_, ⟨fun _ => rfl, fun _ => rfl, fun h => by simp at h⟩, ?_⟩
      · simp [BlockRead.all]
      · simp only [Bool.not_false, if_true, List.append_assoc, List.cons_append]
        rw [scanBlockLines_spaces indent (by omega), Nat.zero_add, scanBlockLines_start hb]

/-- The lines of a literal block, from the start of a line or from inside its text. -/
lemma scanBlockLines_lines (indent line : ℕ) (hr : r.UpTo inLine col) (cs tail : List Char) :
    ∃ r' line' col', line ≤ line' ∧ r'.all = cs.reverse ++ r.all ∧
      r'.UpTo (!endsLine (!inLine) cs) col' ∧
      scanBlockLines ⟨true, indent⟩ r inLine line col (indentLines indent (!inLine) cs ++ tail) =
        scanBlockLines ⟨true, indent⟩ r' (!endsLine (!inLine) cs) line' col' tail := by
  induction cs generalizing r inLine line col with
  | nil => exact ⟨r, line, col, Nat.le_refl _, rfl, by simpa using hr, by simp [indentLines]⟩
  | cons c cs ih =>
    obtain ⟨r', line', col', hline, hall, hr', hchar⟩ :=
      scanBlockLines_char indent line hr c cs tail
    obtain ⟨r'', line'', col'', hline', hall', hr'', hscan⟩ := ih line' hr'
    rw [Bool.not_not] at hr'' hscan
    refine ⟨r'', line'', col'', Nat.le_trans hline hline', ?_, ?_, ?_⟩
    · rw [hall', hall]
      simp
    · rwa [endsLine_cons]
    · rw [hchar, hscan, endsLine_cons]

/-- A text without line ends at its end is read with the line end behind it. -/
lemma scanBlockLines_lineEnd {margin : ℕ} (indent line : ℕ) (hcs : endsLine true cs = false)
    (hc : isBreak c = true) (ht : Follows margin tail) (hm : margin ≤ indent) :
    ∃ r line', line ≤ line' ∧ r.text = cs.reverse ∧ r.lineEnd = [c] ∧
      scanBlockLines ⟨true, indent⟩ {} false line 0 (indentLines indent true cs ++ c :: tail) =
        some (r, .atNext line' tail) := by
  obtain ⟨r, line', col', hline, hall, hr, hscan⟩ :=
    scanBlockLines_lines indent line (BlockRead.upTo_start {}) cs (c :: tail)
  rw [Bool.not_false, hcs, Bool.not_false] at hr hscan
  rw [scanBlockLines_inLine, if_pos hc, scanBlockLines_follows ht hm] at hscan
  refine ⟨{ r with lineEnd := [c] }, line' + 1, by omega, ?_, rfl, hscan⟩
  simpa [BlockRead.all, hr.more rfl, hr.lineEnd rfl] using hall

/-- A text that ends with line ends is read with all of them. -/
lemma scanBlockLines_lineEnds {margin : ℕ} (indent line : ℕ) (hcs : endsLine true cs = true)
    (ht : Follows margin tail) (hm : margin ≤ indent) :
    ∃ r line', line ≤ line' ∧ r.all = cs.reverse ∧
      scanBlockLines ⟨true, indent⟩ {} false line 0 (indentLines indent true cs ++ tail) =
        some (r, .atNext line' tail) := by
  obtain ⟨r, line', col', hline, hall, hr, hscan⟩ :=
    scanBlockLines_lines indent line (BlockRead.upTo_start {}) cs tail
  rw [Bool.not_false, hcs, Bool.not_true] at hr hscan
  rw [hr.start rfl, scanBlockLines_follows ht hm] at hscan
  exact ⟨r, line', hline, by simpa [BlockRead.all] using hall, hscan⟩

end

/-- What the marks of a literal block say about the line ends behind its last line. -/
def chompingFor (cs : List Char) : Chomping :=
  match cs.reverse with
  | [] => .strip
  | [c] => if isBreak c then .keep else .strip
  | c :: d :: _ => if !isBreak c then .strip else if isBreak d then .keep else .clip

lemma chompingFor_of_not_endsLine (h : endsLine true cs = false) : chompingFor cs = .strip := by
  rcases List.eq_nil_or_concat cs with rfl | ⟨pre, c, rfl⟩
  · rfl
  · rw [List.concat_eq_append, endsLine_concat] at h
    rcases hpre : pre.reverse with _ | ⟨d, ds⟩ <;> simp [chompingFor, h, hpre]

/-- All line ends are kept, unless a single one ends the last line. -/
lemma chompingFor_of_endsLine (hne : cs ≠ []) (h : endsLine true cs = true) :
    chompingFor cs = .keep ∨ ∃ pre c, cs = pre ++ [c] ∧ endsLine true pre = false ∧
      isBreak c = true ∧ chompingFor cs = .clip := by
  obtain ⟨pre, c, rfl⟩ := (List.eq_nil_or_concat cs).resolve_left hne
  rw [List.concat_eq_append] at h ⊢
  rw [endsLine_concat] at h
  rcases List.eq_nil_or_concat pre with rfl | ⟨pre, d, rfl⟩
  · left
    simp [chompingFor, h]
  · rw [List.concat_eq_append]
    cases hd : isBreak d with
    | true =>
      left
      simp [chompingFor, h, hd]
    | false =>
      right
      exact ⟨pre ++ [d], c, rfl, by rw [endsLine_concat, hd], h, by simp [chompingFor, h, hd]⟩

/-- The first line does not show where the lines of the block start. -/
def hidesIndent (cs : List Char) : Bool := cs.head?.any fun c => isSpace c || isBreak c

lemma literalMarks_eq (cs : List Char) :
    literalMarks cs = (if hidesIndent cs then ['2'] else []) ++
      match chompingFor cs with
      | .strip => ['-']
      | .clip => []
      | .keep => ['+'] := by
  unfold literalMarks chompingFor hidesIndent
  congr 1
  rcases cs.reverse with _ | ⟨c, _ | ⟨d, ds⟩⟩
  · rfl
  · by_cases h : isBreak c = true <;> simp [h]
  · by_cases h : isBreak c = true <;> by_cases h' : isBreak d = true <;> simp [h, h']

lemma blockMarks_literalMarks (cs tail : List Char) :
    blockMarks (literalMarks cs ++ '\n' :: tail) =
      some (chompingFor cs, if hidesIndent cs then some 2 else none, '\n' :: tail) := by
  rw [literalMarks_eq]
  cases hidesIndent cs <;> cases chompingFor cs <;> rfl

lemma reachOfBlankLines_spaces (k col reach : ℕ) :
    reachOfBlankLines col reach (spaces k ++ tail) = reachOfBlankLines (col + k) reach tail := by
  induction k generalizing col with
  | zero => rfl
  | succ k ih =>
    rw [spaces_succ, List.cons_append, reachOfBlankLines, if_pos (by decide), ih,
      Nat.add_right_comm, Nat.add_assoc]

/-- The first line of a block shows where its lines start, if it starts with a word. -/
lemma reachOfBlankLines_lines (indent : ℕ) (tail : List Char)
    (hp : ∀ c ∈ cs, isPrintable c = true) (hne : cs ≠ []) (h : hidesIndent cs = false) :
    reachOfBlankLines 0 0 (indentLines indent true cs ++ tail) = some indent := by
  obtain ⟨c, cs, rfl⟩ := List.exists_cons_of_ne_nil hne
  simp only [hidesIndent, List.head?_cons, Option.any_some, Bool.or_eq_false_iff] at h
  have hsp : isSpacing c = false := by rw [isSpacing_of_printable (hp c (by simp)), h.1]
  simp only [isSpacing, Bool.or_eq_false_iff] at hsp
  rw [indentLines, if_neg (by simp [h.2]), if_pos rfl, List.append_assoc,
    reachOfBlankLines_spaces]
  simp [reachOfBlankLines, hsp.1, hsp.2, h.2]

/-- The lines of a literal block are read back as the text, by its marks. -/
lemma scanBlockLines_text (indent line : ℕ) {margin : ℕ} (hne : cs ≠ [])
    (ht : Follows margin tail) (hm : margin ≤ indent) :
    ∃ r line', line ≤ line' ∧ r.finish (chompingFor cs) = cs ∧
      scanBlockLines ⟨true, indent⟩ {} false line 0
        (indentLines indent true cs ++ ((if endsLine true cs then [] else ['\n']) ++ tail)) =
        some (r, .atNext line' tail) := by
  by_cases hends : endsLine true cs = true
  · rw [if_pos hends, List.nil_append]
    rcases chompingFor_of_endsLine hne hends with hkeep | ⟨pre, c, rfl, hpre, hc, hclip⟩
    · obtain ⟨r, line', hline, hall, hscan⟩ := scanBlockLines_lineEnds indent line hends ht hm
      refine ⟨r, line', hline, ?_, hscan⟩
      rw [hkeep, BlockRead.finish, ← BlockRead.all, hall, List.reverse_reverse]
    · -- only the last line ends with the last character
      obtain ⟨r, line', hline, htext, hend, hscan⟩ :=
        scanBlockLines_lineEnd indent line hpre hc ht hm
      refine ⟨r, line', hline, ?_, ?_⟩
      · rw [hclip, BlockRead.finish, htext, hend]
        simp
      · rw [indentLines_append, hpre]
        simpa [indentLines, hc] using hscan
  · rw [Bool.not_eq_true] at hends
    obtain ⟨r, line', hline, htext, -, hscan⟩ :=
      scanBlockLines_lineEnd (c := '\n') indent line hends (by decide) ht hm
    refine ⟨r, line', hline, ?_, by simpa [hends] using hscan⟩
    rw [chompingFor_of_not_endsLine hends, BlockRead.finish, htext, List.reverse_reverse]

/-- A literal block behind its bar. -/
lemma scanBlockScalar_literal {p : ℕ} (line col : ℕ) (hp : ∀ c ∈ cs, isPrintable c = true)
    (hne : cs ≠ []) (ht : Follows (p + 1) tail) :
    ∃ line', line < line' ∧
      scanBlockScalar true (p + 1) ⟨literalMarks cs ++ '\n' :: (indentLines (p + 2) true cs ++
        ((if endsLine true cs then [] else ['\n']) ++ tail)), line, col⟩ =
        some (cs, .atNext line' tail) := by
  obtain ⟨r, line', hl, hr, hscan⟩ := scanBlockLines_text (p + 2) (line + 1) hne ht (by omega)
  refine ⟨line', by omega, ?_⟩
  have hs : isSpacing '\n' = false := by decide
  have hb : isBreak '\n' = true := by decide
  rw [scanBlockScalar]
  simp only [blockMarks_literalMarks, Option.bind_eq_bind, Option.bind_some, Cursor.skipWhile,
    Cursor.skipBreak, List.dropWhile_cons, List.takeWhile_cons, hs, hb, endsToken,
    List.head?_cons, Option.any_some, Bool.false_eq_true, if_false, if_true, Bool.or_true,
    Bool.not_true, show ('\n' == '#') = false by decide]
  by_cases hh : hidesIndent cs = true
  · simp only [hh, if_true, Option.bind_some, hscan, hr]
  · rw [Bool.not_eq_true] at hh
    have hreach := reachOfBlankLines_lines (p + 2)
      ((if endsLine true cs then [] else ['\n']) ++ tail) hp hne hh
    have hmax : max (p + 2) (max (p + 1) 1) = p + 2 := by omega
    simp only [hh, Bool.false_eq_true, if_false, hreach, Option.map_some, Option.bind_some, hmax,
      hscan, hr]

end BurnRate.Yaml
