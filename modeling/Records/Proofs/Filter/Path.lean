import Records.Filter.Path
import Records.Proofs.Outcome
import Records.Proofs.Text.Split

/-!
# How filter keys are written

A filter key is its segments with dots between them, and a segment is a run of marks followed by a
name.  A key is read exactly when it is so written (`parse_iff_written`): each part between dots
gives up its longest run of marks, the kinds of marks in it are what the segment shows, and what is
left is the name, which has to be there.  The order of the marks and their repetition are not seen.
-/

set_option autoImplicit false

namespace Records

namespace Segment

/-- A mark that may stand before a name. -/
inductive Mark where
  | or
  | not
deriving DecidableEq, Repr

namespace Mark

def text : Mark → List Char
  | .or => ['o', 'r', ':']
  | .not => ['n', 'o', 't', ':']

/-- The text of marks one after the other. -/
def run (marks : List Mark) : List Char := marks.flatMap text

/-- The text of a run of marks begins with the text of its first mark. -/
theorem run_cons (mark : Mark) (marks : List Mark) : run (mark :: marks) = mark.text ++ run marks :=
  rfl

/-- No mark is the beginning of another. -/
theorem text_append_inj {a b : Mark} {x y : List Char} (h : a.text ++ x = b.text ++ y) :
    a = b ∧ x = y := by
  cases a <;> cases b <;> simp [text] at h ⊢ <;> exact h

/-- No mark holds the separator of segments. -/
theorem dot_not_mem_run (marks : List Mark) : '.' ∉ run marks := by
  intro hdot
  obtain ⟨mark, _, hmark⟩ := List.mem_flatMap.mp hdot
  cases mark <;> simp [text] at hmark

end Mark

/-- A text that begins with no mark. -/
def Unmarked (text : List Char) : Prop := ∀ mark : Mark, ¬mark.text <+: text

/-- The longest run of marks at the beginning of a text, and what is left after it. -/
structure LongestRun (text : List Char) (marks : List Mark) (rest : List Char) : Prop where
  splits : text = Mark.run marks ++ rest
  longest : ∀ others left, text = Mark.run others ++ left → others.length ≤ marks.length

/-- Marks of exactly the kinds that stand in front of a segment. -/
structure HasMarks (s : Segment) (marks : List Mark) : Prop where
  negated : s.negated = true ↔ Mark.not ∈ marks
  disjoin : s.disjoin = true ↔ Mark.or ∈ marks

/-- A segment whose name is what is left of a text after its longest run of marks, and whose marks
are of the kinds in that run. -/
def IsReadFrom (s : Segment) (text : List Char) : Prop :=
  ∃ marks, LongestRun text marks s.name.toList ∧ s.HasMarks marks

/-- A text of marks of the kinds of a segment, in any order and number, and then its name. -/
def IsWrittenAs (s : Segment) (text : String) : Prop :=
  ∃ marks, text.toList = Mark.run marks ++ s.name.toList ∧ s.HasMarks marks

/-- A name that can stand in a key: one that is there, without a dot and without a mark before
it. -/
structure IsName (name : String) : Prop where
  filled : name ≠ ""
  undotted : '.' ∉ name.toList
  unmarked : Unmarked name.toList

section

variable {marks : List Mark} {text rest : List Char}

/-- What a longest run leaves begins with no mark. -/
theorem LongestRun.unmarked (h : LongestRun text marks rest) : Unmarked rest := by
  rintro mark ⟨left, hleft⟩
  have hmore : text = Mark.run (marks ++ [mark]) ++ left := by
    rw [h.splits, ← hleft]
    simp [Mark.run]
  have hlength := h.longest _ _ hmore
  rw [List.length_append, List.length_singleton] at hlength
  omega

/-- A run of marks before a text that begins with no mark is the longest one. -/
theorem longestRun_of_unmarked (marks : List Mark) (h : Unmarked rest) :
    LongestRun (Mark.run marks ++ rest) marks rest := by
  refine ⟨rfl, ?_⟩
  intro others left hothers
  induction others generalizing marks with
  | nil => exact Nat.zero_le _
  | cons other others ih =>
    cases marks with
    | nil =>
      rw [Mark.run_cons, List.append_assoc] at hothers
      exact absurd ⟨_, hothers.symm⟩ (h other)
    | cons mark marks =>
      rw [Mark.run_cons, Mark.run_cons, List.append_assoc, List.append_assoc] at hothers
      exact Nat.succ_le_succ (ih marks (Mark.text_append_inj hothers).2)

/-- Reading takes exactly the marks of a run off a text that begins with no other. -/
theorem ofChars_run (h : Unmarked rest) (negated disjoin : Bool) (marks : List Mark) :
    ofChars negated disjoin (Mark.run marks ++ rest) =
      ⟨String.ofList rest, negated || decide (Mark.not ∈ marks),
        disjoin || decide (Mark.or ∈ marks)⟩ := by
  induction marks generalizing negated disjoin with
  | nil =>
    show ofChars negated disjoin rest = _
    rw [ofChars]
    · simp
    · rintro left rfl
      exact h .or ⟨left, rfl⟩
    · rintro left rfl
      exact h .not ⟨left, rfl⟩
  | cons mark marks ih =>
    cases mark with
    | or =>
      show ofChars negated true (Mark.run marks ++ rest) = _
      simp [ih]
    | not =>
      show ofChars true disjoin (Mark.run marks ++ rest) = _
      simp [ih]

/-- A mark in front of a text lengthens its longest run by itself. -/
theorem LongestRun.cons (mark : Mark) (h : LongestRun text marks rest) :
    LongestRun (mark.text ++ text) (mark :: marks) rest := by
  have hrun := longestRun_of_unmarked (mark :: marks) h.unmarked
  rwa [Mark.run_cons, List.append_assoc, ← h.splits] at hrun

/-- Every text begins with a longest run of marks. -/
theorem exists_longestRun (text : List Char) : ∃ marks rest, LongestRun text marks rest := by
  fun_induction ofChars false false text with
  | case1 negated disjoin left ih =>
    obtain ⟨marks, rest, h⟩ := ih
    exact ⟨.or :: marks, rest, h.cons .or⟩
  | case2 negated disjoin left ih =>
    obtain ⟨marks, rest, h⟩ := ih
    exact ⟨.not :: marks, rest, h.cons .not⟩
  | case3 negated disjoin name hor hnot =>
    refine ⟨[], name, longestRun_of_unmarked [] ?_⟩
    rintro mark ⟨left, rfl⟩
    cases mark with
    | or => exact hor left rfl
    | not => exact hnot left rfl

/-- A segment's name is what the longest run leaves, and its flags say which marks the run holds. -/
theorem LongestRun.ofChars_eq (h : LongestRun text marks rest) :
    ofChars false false text =
      ⟨String.ofList rest, decide (Mark.not ∈ marks), decide (Mark.or ∈ marks)⟩ := by
  have hread := ofChars_run h.unmarked false false marks
  rwa [← h.splits] at hread

/-- Reading a segment takes off its longest run of marks, and remembers their kinds. -/
theorem ofChars_eq_iff {s : Segment} : ofChars false false text = s ↔ s.IsReadFrom text := by
  constructor
  · rintro rfl
    obtain ⟨marks, rest, h⟩ := exists_longestRun text
    rw [h.ofChars_eq]
    exact ⟨marks, by rwa [String.toList_ofList], by simp, by simp⟩
  · rintro ⟨marks, h, hmarks⟩
    have hnegated : decide (Mark.not ∈ marks) = s.negated := by
      rw [Bool.eq_iff_iff, decide_eq_true_iff, hmarks.negated]
    have hdisjoin : decide (Mark.or ∈ marks) = s.disjoin := by
      rw [Bool.eq_iff_iff, decide_eq_true_iff, hmarks.disjoin]
    rw [h.ofChars_eq, hnegated, hdisjoin, String.ofList_toList]

/-- What is written for a segment with a proper name is one part of a key, and is read as the
segment. -/
theorem IsWrittenAs.reads {s : Segment} {text : String} (h : s.IsWrittenAs text)
    (hname : IsName s.name) : '.' ∉ text.toList ∧ ofChars false false text.toList = s := by
  obtain ⟨marks, htext, hmarks⟩ := h
  rw [htext]
  constructor
  · rw [List.mem_append, not_or]
    exact ⟨Mark.dot_not_mem_run marks, hname.undotted⟩
  · exact ofChars_eq_iff.mpr ⟨marks, longestRun_of_unmarked marks hname.unmarked, hmarks⟩

end

end Segment

namespace FilterPath

open Segment

/-- All segments of a path, the column last. -/
def segments (path : FilterPath) : List Segment := path.relations ++ [path.column]

/-- The check for a segment without a name fails exactly when every segment has one. -/
theorem any_unnamed_iff (parts : List Segment) :
    (parts.any fun part => part.name.isEmpty) = true ↔ ¬∀ s ∈ parts, s.name ≠ "" := by
  rw [List.any_eq_true]
  simp [String.isEmpty_iff]

/-- A key is read as the segments of its parts, of which none is without a name and not too many
are relations. -/
theorem parse_eq_ok_iff {raw : String} {path : FilterPath} :
    parse raw = .ok path ↔
      (raw.toList.splitOn '.').map (ofChars false false) = path.segments ∧
        (∀ s ∈ path.segments, s.name ≠ "") ∧ path.relations.length ≤ maxRelations := by
  obtain ⟨relations, column⟩ := path
  have hfilled : (raw.toList.splitOn '.').map (ofChars false false) ≠ [] := by
    simp [List.splitOn_ne_nil]
  rw [parse, Text.splitAt_eq_splitOn]
  -- the last part is the column and those in front of it are the relations
  generalize (raw.toList.splitOn '.').map (ofChars false false) = parts at hfilled
  rcases List.eq_nil_or_concat parts with rfl | ⟨front, last, rfl⟩
  · exact absurd rfl hfilled
  rw [List.concat_eq_append]
  simp only [any_unnamed_iff, List.getLast?_concat, List.dropLast_concat, segments,
    List.append_singleton_inj]
  by_cases hnamed : ∀ s ∈ front ++ [last], s.name ≠ ""
  · rw [if_neg (not_not_intro hnamed)]
    by_cases hdeep : maxRelations < front.length
    · rw [if_pos hdeep]
      constructor
      · intro h
        cases h
      · rintro ⟨⟨rfl, rfl⟩, _, hshort⟩
        exact absurd hdeep (Nat.not_lt.mpr hshort)
    · rw [if_neg hdeep]
      constructor
      · intro h
        cases h
        exact ⟨⟨rfl, rfl⟩, hnamed, Nat.not_lt.mp hdeep⟩
      · rintro ⟨⟨rfl, rfl⟩, _, _⟩
        rfl
  · rw [if_pos hnamed]
    constructor
    · intro h
      cases h
    · rintro ⟨⟨rfl, rfl⟩, h, _⟩
      exact absurd h hnamed

/-- Each part of a key that is read is read as one segment of its path. -/
theorem parts_read {raw : String} {path : FilterPath} (h : parse raw = .ok path) :
    List.Forall₂ IsReadFrom path.segments (raw.toList.splitOn '.') := by
  have hparts := (parse_eq_ok_iff.mp h).1
  rw [eq_comm, ← List.forall₂_eq_eq_eq, List.forall₂_map_right_iff] at hparts
  exact hparts.imp fun _ _ hpart => ofChars_eq_iff.mp hpart.symm

/-- The segments of a path that was read have names that can be read again. -/
theorem isName_of_parse {raw : String} {path : FilterPath} (h : parse raw = .ok path) :
    ∀ s ∈ path.segments, IsName s.name := by
  obtain ⟨hparts, hnamed, _⟩ := parse_eq_ok_iff.mp h
  intro s hs
  have hname := hnamed s hs
  rw [← hparts] at hs
  obtain ⟨part, hpart, hsegment⟩ := List.mem_map.mp hs
  obtain ⟨marks, hrun, _⟩ := ofChars_eq_iff.mp hsegment
  rw [← Text.splitAt_eq_splitOn] at hpart
  have hdot := Text.not_mem_of_mem_splitAt hpart
  rw [hrun.splits, List.mem_append, not_or] at hdot
  exact ⟨hname, hdot.2, hrun.unmarked⟩

/-- A key is read exactly when it has few enough segments and each has something behind its marks.
-/
theorem exists_parse_iff {raw : String} :
    (∃ path, parse raw = .ok path) ↔
      (raw.toList.splitOn '.').length ≤ maxRelations + 1 ∧
        ∀ part ∈ raw.toList.splitOn '.', ∃ marks rest, LongestRun part marks rest ∧ rest ≠ [] := by
  constructor
  · rintro ⟨path, h⟩
    obtain ⟨hparts, hnamed, hshort⟩ := parse_eq_ok_iff.mp h
    have hlength := congrArg List.length hparts
    rw [List.length_map, segments, List.length_append, List.length_singleton] at hlength
    refine ⟨by omega, ?_⟩
    intro part hpart
    have hmem : ofChars false false part ∈ path.segments := hparts ▸ List.mem_map_of_mem hpart
    obtain ⟨marks, hrun, _⟩ := ofChars_eq_iff.mp (Eq.refl (ofChars false false part))
    exact ⟨marks, _, hrun, by simpa using hnamed _ hmem⟩
  · rintro ⟨hlength, hparts⟩
    obtain ⟨front, last, hsplit⟩ : ∃ front last, raw.toList.splitOn '.' = front ++ [last] :=
      ⟨_, _, (List.dropLast_concat_getLast (List.splitOn_ne_nil _ _)).symm⟩
    refine ⟨⟨front.map (ofChars false false), ofChars false false last⟩, parse_eq_ok_iff.mpr ?_⟩
    rw [hsplit, List.length_append, List.length_singleton] at hlength
    refine ⟨by simp [hsplit, segments], ?_, by simpa using hlength⟩
    intro s hs
    have hmem : s ∈ (raw.toList.splitOn '.').map (ofChars false false) := by
      simpa [hsplit, segments] using hs
    obtain ⟨part, hpart, rfl⟩ := List.mem_map.mp hmem
    obtain ⟨marks, rest, hrun, hrest⟩ := hparts part hpart
    rw [hrun.ofChars_eq]
    simpa using hrest

/-- A key that is read is one of the ways to write its path. -/
theorem exists_written {raw : String} {path : FilterPath} (h : parse raw = .ok path) :
    ∃ texts, List.Forall₂ IsWrittenAs path.segments texts ∧
      raw = ".".intercalate texts := by
  refine ⟨(raw.toList.splitOn '.').map String.ofList, ?_, ?_⟩
  · rw [List.forall₂_map_right_iff]
    refine (parts_read h).imp ?_
    rintro s part ⟨marks, hrun, hmarks⟩
    exact ⟨marks, by rw [String.toList_ofList, hrun.splits], hmarks⟩
  · rw [← String.toList_inj, String.toList_intercalate, List.map_map]
    have hid : String.toList ∘ String.ofList = id := funext fun _ => String.toList_ofList
    rw [hid, List.map_id]
    exact (List.intercalate_splitOn '.').symm

/-- Every way to write a short enough path with proper names is read as that path. -/
theorem parse_of_written {path : FilterPath} (hshort : path.relations.length ≤ maxRelations)
    (hnames : ∀ s ∈ path.segments, IsName s.name) {texts : List String}
    (h : List.Forall₂ IsWrittenAs path.segments texts) :
    parse (".".intercalate texts) = .ok path := by
  have hread := (List.forall₂_and_left _ _).mpr ⟨hnames, h⟩
  have hundotted : ∀ text ∈ texts, '.' ∉ text.toList := by
    intro text htext
    obtain ⟨s, _, hname, hwritten⟩ := Outcome.exists_of_forall₂_right hread htext
    exact (hwritten.reads hname).1
  have hfilled : texts ≠ [] := by
    rintro rfl
    simp [segments] at h
  have hsplit : (".".intercalate texts).toList.splitOn '.' = texts.map String.toList := by
    rw [String.toList_intercalate]
    exact List.splitOn_intercalate '.' (by simpa using hundotted) (by simpa using hfilled)
  refine parse_eq_ok_iff.mpr ⟨?_, fun s hs => (hnames s hs).filled, hshort⟩
  rw [hsplit, eq_comm, ← List.forall₂_eq_eq_eq, List.forall₂_map_right_iff,
    List.forall₂_map_right_iff]
  exact hread.imp fun _ _ hboth => (hboth.2.reads hboth.1).2.symm

/-- A key is read when it has few enough parts and each of them has a name after its longest run of
marks.  A key that is read is the path whose segments have these names and show the kinds of marks
in these runs; and a path is read from exactly the keys that write its segments, with their marks in
any order and number, when it is short enough and has proper names. -/
theorem parse_iff_written (raw : String) :
    ((∃ path, parse raw = .ok path) ↔
      (raw.toList.splitOn '.').length ≤ maxRelations + 1 ∧
        ∀ part ∈ raw.toList.splitOn '.', ∃ marks rest, LongestRun part marks rest ∧ rest ≠ []) ∧
    ∀ path,
      (parse raw = .ok path →
        List.Forall₂ IsReadFrom path.segments (raw.toList.splitOn '.')) ∧
      (parse raw = .ok path ↔
        path.relations.length ≤ maxRelations ∧ (∀ s ∈ path.segments, IsName s.name) ∧
          ∃ texts, List.Forall₂ IsWrittenAs path.segments texts ∧
            raw = ".".intercalate texts) := by
  refine ⟨exists_parse_iff, fun path => ⟨parts_read, ?_⟩⟩
  constructor
  · intro h
    exact ⟨(parse_eq_ok_iff.mp h).2.2, isName_of_parse h, exists_written h⟩
  · rintro ⟨hshort, hnames, texts, htexts, rfl⟩
    exact parse_of_written hshort hnames htexts

/-- Names that only look like marks, marks in any order, and a part of marks alone. -/
example : parse "not:or:not:oracle.nothing" =
      .ok ⟨[⟨"oracle", true, true⟩], ⟨"nothing", false, false⟩⟩ ∧
    parse "author.or:not:" = .error (.invalid (.malformedFilterKey "author.or:not:")) :=
  ⟨rfl, rfl⟩

end FilterPath

end Records
