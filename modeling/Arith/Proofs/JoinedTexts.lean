import Arith.Proofs.ScannerCursor
import Arith.Proofs.SideBySide
import Arith.Proofs.TokenSeams

namespace Arith

def Position.behind (front : List Char) (p : Position) : Position where
  offset := p.offset + front.length
  line := p.line + front.count '\n'
  column := if p.line = 1 then p.column + (lastLine front).length else p.column

/-- The same place, in a text that has `front` put in front of it. -/
def Location.behind (front : List Char) (l : Location) : Location where
  filename := l.filename
  offset := l.offset + front.length
  line := l.line + front.count '\n'
  column := if l.line = 1 then l.column + (lastLine front).length else l.column

namespace Position

variable {front : List Char} {p : Position}

theorem behind_origin (front : List Char) : origin.behind front = origin.after front := by
  rw [after_origin]
  simp [behind, origin]

theorem inText_behind (filename : String) : (p.behind front).inText filename = (p.inText filename).behind front := by
  have first : (p.line : Int) = 1 ↔ p.line = 1 := by omega
  by_cases line : p.line = 1 <;> simp [inText, behind, Location.behind, first, line]

theorem one_le_line_step (counted : 1 ≤ p.line) (c : Char) : 1 ≤ (p.step c).line := by
  unfold step
  split <;> simp only <;> omega

theorem one_le_line_after (counted : 1 ≤ p.line) (text : List Char) : 1 ≤ (p.after text).line := by
  induction text generalizing p with
  | nil => exact counted
  | cons c text ih => exact ih (one_le_line_step counted c)

theorem behind_step (counted : 1 ≤ p.line) (c : Char) : (p.step c).behind front = (p.behind front).step c := by
  have started : p.line ≠ 0 := by omega
  unfold step
  split
  -- a line feed opens a later line, which starts at the first column in either text
  · simp [behind, started, Nat.add_right_comm]
  · simp only [behind, Nat.add_right_comm]
    split <;> rfl

theorem behind_after (counted : 1 ≤ p.line) (text : List Char) :
    (p.after text).behind front = (p.behind front).after text := by
  induction text generalizing p with
  | nil => rfl
  | cons c text ih => rw [after_cons, after_cons, ih (one_le_line_step counted c), behind_step counted]

end Position

namespace Scanner

variable {front : List Char} {s t : Scanner}

structure Moved (front : List Char) (s t : Scanner) : Prop where
  rest : t.rest = s.rest
  filename : t.filename = s.filename
  position : t.position = s.position.behind front
  counted : 1 ≤ s.position.line

theorem Moved.scan (moved : Moved front s t) :
    t.scan.1 = s.scan.1.relocate (.behind front) ∧ Moved front s.scan.2 t.scan.2 := by
  obtain ⟨gap, taken, here⟩ := s.reading_scan
  obtain ⟨_, _, there⟩ := t.reading_scan
  obtain ⟨rfl, rfl, face, rest⟩ := here.alike there moved.rest.symm
  have started := Position.one_le_line_after moved.counted gap
  have place : t.position.after gap = (s.position.after gap).behind front := by
    rw [moved.position, Position.behind_after moved.counted]
  have location : t.scan.1.location = s.scan.1.location.behind front := by
    rw [there.location, here.location, place, Position.inText_behind, moved.filename]
  constructor
  · rw [Token.face, Token.face, Prod.mk.injEq] at face
    rw [Token.relocate, face.1, face.2, ← location]
  · refine ⟨rest.symm, ?_, ?_, ?_⟩
    · rw [there.filename, here.filename, moved.filename]
    · rw [there.position, here.position, place, Position.behind_after started]
    · rw [here.position]
      exact Position.one_le_line_after started taken

theorem Moved.tokens (moved : Moved front s t) : t.tokens = s.tokens.map (·.relocate (.behind front)) := by
  induction s using scanInduction generalizing t with
  | ended s stop =>
    obtain ⟨same, _⟩ := moved.scan
    have stop' : t.scan.1.kind = .endOfInput := by rw [same]; exact stop
    rw [tokens_of_end stop, tokens_of_end stop', same, List.map_singleton]
  | more s more ih =>
    obtain ⟨same, next⟩ := moved.scan
    have more' : t.scan.1.kind ≠ .endOfInput := by rw [same]; exact more
    rw [tokens_of_more more, tokens_of_more more', ih next, same, List.map_cons]

end Scanner

/-- The tokens of two texts that are joined are those of the first, but for its end, and those of the second, moved
behind the first. Only a number that goes on across the seam is read otherwise. -/
theorem tokenize_append {front back : String} (filename : String)
    (whole : ¬ SplitsNumber front.toList back.toList) :
    (tokenize (front ++ back) filename).toList =
      (tokenize front filename).toList.dropLast ++
        (tokenize back filename).toList.map (·.relocate (.behind front.toList)) := by
  let s := Scanner.ofSource front filename
  have text : Scanner.ofSource (front ++ back) filename = s.followedBy back.toList := by
    rw [Scanner.ofSource, String.toList_append]
    rfl
  have moved : Scanner.Moved front.toList (.ofSource back filename) (s.behind back.toList) :=
    ⟨rfl, rfl, (Position.behind_origin _).symm, Nat.le_refl 1⟩
  calc (tokenize (front ++ back) filename).toList
      = (s.followedBy back.toList).tokens := by rw [← text]; rfl
    _ = s.tokens.dropLast ++ (s.behind back.toList).tokens := Scanner.tokens_append whole
    _ = (tokenize front filename).toList.dropLast ++
          (tokenize back filename).toList.map (·.relocate (.behind front.toList)) := by
      rw [moved.tokens]
      rfl

theorem tokenize_append_broken_lines :
    (tokenize ("1\n $2" ++ " 3\n4") "").toList =
      (tokenize "1\n $2" "").toList.dropLast ++
        (tokenize " 3\n4" "").toList.map (·.relocate (.behind "1\n $2".toList)) :=
  tokenize_append "" (by decide +kernel)

end Arith
