import Records.Proofs.Calendar.Chronology
import Records.Proofs.Query.Acceptance
import Records.Proofs.Store.Exclusion

/-!
# Ranges of days

A range is asked for on a column, by an object under its name, or on the time stamp.  A bound is
normalized when the filter compiles, which fails when it names no day, and a row is within the range
when the day that its text begins with comes neither before the first day nor after the last,
however the bounds are written (`range_is_interval`).
-/

set_option autoImplicit false

namespace Records

namespace Date

/-- A day is neither before a first day nor after a last one, where there are such. -/
def IsWithin (day : Date) (first last : Option Date) : Prop :=
  (∀ a ∈ first, ¬ day.IsBefore a) ∧ ∀ b ∈ last, ¬ b.IsBefore day

instance (day : Date) (first last : Option Date) : Decidable (day.IsWithin first last) :=
  inferInstanceAs (Decidable (_ ∧ _))

/-- A bound, if there is one, writes a day of the calendar. -/
def BoundWrittenBy (date : Option Date) (raw : Option String) : Prop :=
  Option.Rel (fun date raw => IsWrittenBy date raw ∧ date.IsGregorian) date raw

variable {date : Date} {raw : String}

/-- A day with a plain year fits in ten characters. -/
theorem IsGregorian.fits (h : date.IsGregorian) (hyear : date.HasPlainYear) : date.Fits :=
  ⟨hyear, Nat.le_trans h.month.2 (by omega), Nat.le_trans h.day.2 (by omega)⟩

/-- A day in any layout is normalized to its text. -/
theorem normalize_of_isGregorian (h : date.IsWrittenBy raw) (hday : date.IsGregorian) :
    normalize raw = .ok (String.ofList date.text) := by
  rw [normalize_of_isWrittenBy h, if_pos ((isDay_iff_isGregorian h.1.year).mpr hday)]

/-- A bound that writes a day, or is left open, is a bound. -/
theorem BoundWrittenBy.isBound {date : Option Date} {raw : Option String}
    (h : BoundWrittenBy date raw) : IsBound raw := by
  cases h with
  | none => rintro _ ⟨⟩
  | some h =>
    rintro _ ⟨⟩
    exact ⟨_, normalize_of_isGregorian h.1 h.2⟩

/-- What writes no day of the calendar is rejected, with its text trimmed. -/
theorem normalize_of_not_isGregorian (h : date.IsWrittenBy raw) (hday : ¬ date.IsGregorian) :
    normalize raw = .error (.invalidDate (Text.trim raw)) := by
  rw [normalize_of_isWrittenBy h, if_neg (mt (isDay_iff_isGregorian h.1.year).mp hday)]

/-- A bound is rejected with the text that it trims to. -/
theorem eq_invalidDate_of_normalize {why : Fault} (h : normalize raw = .error why) :
    why = .invalidDate (Text.trim raw) := by
  rw [normalize] at h
  split at h
  · split at h
    · cases h
    · cases h
      rfl
  · split at h
    · cases h
    · cases h
      rfl

end Date

/-! ## Asking for a range -/

/-- A filter that asks for a range of days of a column: an object under the name of the column,
which is neither that of a bound nor one that is read as a path, or the bounds alone for the time
stamp. -/
inductive AsksRange (r : Resource) (bounds : Fields) : String → Json → Prop
  | column {name : String} {column : Column} (plain : name ≠ "from" ∧ name ≠ "to")
      (path : FilterPath.parse name = .ok ⟨[], ⟨name, false, false⟩⟩)
      (known : r.requireColumn name = .ok column) (bounded : hasDayBounds bounds = true) :
      AsksRange r bounds name (.obj [(name, .obj bounds)])
  | timestamp (only : ∀ field ∈ bounds, field.1 = "from" ∨ field.1 = "to") :
      AsksRange r bounds r.timestampColumn (.obj bounds)

namespace Filtering

variable {model : Model} {r : Resource} {column : String} {lower upper : Option String}

/-- The entries for a range on a declared column are those of its bounds. -/
theorem columnClause_range {found : Column} (h : r.requireColumn column = .ok found) :
    columnClause r ⟨column, false, false⟩ (.range lower upper) .and =
      rangeClause column lower upper := by
  rw [columnClause, Outcome.bind_of_ok h, Resource.name_of_requireColumn h]
  exact bind_pure _

/-- A filter that asks for a range is read, and compiles to the entries for its bounds. -/
theorem compile_of_asksRange {bounds : Fields} {json : Json}
    (asked : AsksRange r bounds column json)
    (hlower : dayBound "from" (Fields.get? bounds "from") = .ok lower)
    (hupper : dayBound "to" (Fields.get? bounds "to") = .ok upper) :
    ∃ filters, Filters.parse json = .ok filters ∧ ∀ model, compile model r filters =
      (rangeClause column lower upper).map fun clause => (clause, .without) := by
  cases asked with
  | column plain path known bounded =>
    -- a range under the key `status` is no text, so it does not ask for the trash
    have htrashed : Filters.asksTrashed [(column, .obj bounds)] = false := by
      by_cases hstatus : column = "status" <;>
        simp [Filters.asksTrashed, Fields.get?, hstatus, Json.str?]
    have hmembers : FilterItem.members? (column, .obj bounds) = none := by
      simp [FilterItem.members?, bounded]
    have hoperand : Operand.parse column (.obj bounds) = .ok (.range lower upper) := by
      rw [Operand.parse, if_pos bounded, Outcome.bind_of_ok (dayBound_of_dayBound hlower column),
        Outcome.bind_of_ok (dayBound_of_dayBound hupper column)]
      rfl
    have hitem : FilterItem.parse (column, .obj bounds) =
        .ok (.condition ⟨[], ⟨column, false, false⟩⟩ (.range lower upper)) := by
      rw [FilterItem.parse, hmembers]
      show FilterItem.parseCondition _ = _
      rw [FilterItem.parseCondition, Outcome.bind_of_ok path, Outcome.bind_of_ok hoperand]
      rfl
    refine ⟨{ items := [.condition ⟨[], ⟨column, false, false⟩⟩ (.range lower upper)] }, ?_,
      fun model => ?_⟩
    · rw [Filters.parse_singleton plain.1 plain.2 htrashed, hitem]
      rfl
    · rw [compile_single, pathClause, columnClause_range known]
  | timestamp only =>
    have htrashed : Filters.asksTrashed bounds = false := by
      have hstatus : Fields.get? bounds "status" = none := by
        rw [Fields.get?_eq_none_iff, List.mem_map]
        rintro ⟨field, hfield, hname⟩
        rcases only field hfield with h | h <;> simp [h] at hname
      rw [Filters.asksTrashed, hstatus]
      rfl
    -- bounds at the root are no items, and they leave nothing else to ask for
    have hitems : (bounds.filter fun field => Filters.isItem false field.1) = [] := by
      rw [List.filter_eq_nil_iff]
      intro field hfield
      rcases only field hfield with h | h <;> simp [Filters.isItem, h]
    refine ⟨{ lower := lower, upper := upper }, ?_, fun model => ?_⟩
    · rw [Filters.parse, Outcome.bind_of_ok hlower, Outcome.bind_of_ok hupper, htrashed]
      simp only [hitems]
      rfl
    · rw [compile]
      cases rangeClause r.timestampColumn lower upper with
      | error why => rfl
      | ok clause =>
        show Except.ok (clause ++ [], Trashed.without) = _
        rw [List.append_nil]
        rfl

/-- A range whose first bound is rejected does not compile. -/
theorem rangeClause_of_lower {raw : String} {why : Fault} (h : Date.normalize raw = .error why)
    (upper : Option String) : rangeClause column (some raw) upper = .error why := by
  rw [rangeClause, boundClause, h]
  rfl

/-- A range whose last bound is rejected does not compile either, but its first bound is tried
before. -/
theorem rangeClause_of_upper {raw : String} {why : Fault} (h : Date.normalize raw = .error why)
    (lower : Option String) :
    rangeClause column lower (some raw) = .error why ∨
      ∃ other reason, lower = some other ∧ Date.normalize other = .error reason ∧
        rangeClause column lower (some raw) = .error reason := by
  cases lower with
  | none =>
    left
    rw [rangeClause, boundClause, boundClause, h]
    rfl
  | some other =>
    cases hother : Date.normalize other with
    | error reason => exact .inr ⟨other, reason, rfl, hother, rangeClause_of_lower hother _⟩
    | ok day =>
      left
      rw [rangeClause, boundClause, boundClause, hother, h]
      rfl

end Filtering

/-! ## The rows within a range -/

namespace Store

variable {row : Row} {column text : String} {day : Date} {date : Option Date} {raw : Option String}

/-- A column whose text begins with a day is within a lower bound when that day is not before it,
and within an upper one when it is not after it. -/
theorem admitsBound_of_writtenBy (htext : (Fields.get? row column).bind Json.text? = some text)
    (hday : day.Fits) (hbegins : day.text <+: text.toList) (h : Date.BoundWrittenBy date raw) :
    admitsBound row column .lower raw = decide (∀ a ∈ date, ¬ day.IsBefore a) ∧
      admitsBound row column .upper raw = decide (∀ b ∈ date, ¬ b.IsBefore day) := by
  cases h with
  | none => simp [admitsBound]
  | @some limit raw h =>
    have hread := Date.dayOf_of_prefix hday hbegins
    simp only [admitsBound, Date.normalize_of_isGregorian h.1 h.2, htext, Option.any_some, hread,
      Date.admits_lower h.1.1 hday, Date.admits_upper h.1.1 hday]
    simp

/-- The entries for a range hold of the rows whose day is within it. -/
theorem satisfies_rangeClause {model : Model} {store : Store} {r : Resource}
    {first last : Option Date} {lower upper : Option String}
    (hfirst : Date.BoundWrittenBy first lower) (hlast : Date.BoundWrittenBy last upper)
    {clause : Clause}
    (hclause : Filtering.rangeClause column lower upper = .ok clause)
    (htext : (Fields.get? row column).bind Json.text? = some text) (hday : day.Fits)
    (hbegins : day.text <+: text.toList) :
    store.satisfies model r row clause = .ok (decide (day.IsWithin first last)) := by
  rw [satisfies_of_resolves model store r row clause (Filtering.rangeClause_resolves hclause),
    (Filtering.rangeClause_conjunction hclause).value_eq,
    (admitsBound_of_writtenBy htext hday hbegins hfirst).1,
    (admitsBound_of_writtenBy htext hday hbegins hlast).2]
  exact congrArg Except.ok (Bool.decide_and _ _).symm

end Store

/-- A range of days, each written in any of the four layouts or left out, holds of the rows whose
text begins with a day that is neither before the first day nor after the last one.  A bound that is
written in one of them and names no day of the calendar is rejected with its text, unless the bound
before it has been. -/
theorem range_is_interval {r : Resource} {bounds : Fields} {column : String} {json : Json}
    (asked : AsksRange r bounds column json) {lower upper : Option String}
    (hlower : dayBound "from" (Fields.get? bounds "from") = .ok lower)
    (hupper : dayBound "to" (Fields.get? bounds "to") = .ok upper) (model : Model) :
    ∃ filters, Filters.parse json = .ok filters ∧
      (∀ first last, Date.BoundWrittenBy first lower → Date.BoundWrittenBy last upper →
        ∃ clause, Filtering.compile model r filters = .ok (clause, .without) ∧
          ∀ (store : Store) (row : Row) (text : String) (day : Date),
            (Fields.get? row column).bind Json.text? = some text → day.HasPlainYear →
            day.IsGregorian → Layout.normal.write day <+: text.toList →
            store.satisfies model r row clause = .ok (decide (day.IsWithin first last))) ∧
      ∀ (date : Date) (raw : String), date.IsWrittenBy raw → ¬ date.IsGregorian →
        (lower = some raw →
          Filtering.compile model r filters = .error (.invalidDate (Text.trim raw))) ∧
        (upper = some raw →
          Filtering.compile model r filters = .error (.invalidDate (Text.trim raw)) ∨
            ∃ other, lower = some other ∧ (∀ day, Date.normalize other ≠ .ok day) ∧
              Filtering.compile model r filters = .error (.invalidDate (Text.trim other))) := by
  obtain ⟨filters, hparse, hcompile⟩ := Filtering.compile_of_asksRange asked hlower hupper
  refine ⟨filters, hparse, ?_, ?_⟩
  · intro first last hfirst hlast
    obtain ⟨clause, hclause⟩ :=
      (Filtering.exists_rangeClause_iff column lower upper).mpr ⟨hfirst.isBound, hlast.isBound⟩
    refine ⟨clause, ?_, fun store row text day htext hyear hday hbegins => ?_⟩
    · rw [hcompile, hclause]
      rfl
    · rw [Date.write_normal hyear] at hbegins
      exact Store.satisfies_rangeClause hfirst hlast hclause htext (hday.fits hyear) hbegins
  · intro date raw hwritten hday
    have hrejected := Date.normalize_of_not_isGregorian hwritten hday
    constructor
    · rintro rfl
      rw [hcompile, Filtering.rangeClause_of_lower hrejected]
      rfl
    · rintro rfl
      -- the lower bound is read first, so its fault hides that of the upper one
      rcases Filtering.rangeClause_of_upper hrejected lower with h | ⟨other, _, rfl, hother, h⟩
      · left
        rw [hcompile, h]
        rfl
      · right
        obtain rfl := Date.eq_invalidDate_of_normalize hother
        refine ⟨other, rfl, fun day => by simp [hother], ?_⟩
        rw [hcompile, h]
        rfl

/-- Posts from the last of January to the leap day, and a last day of February that there is not. -/
theorem range_is_interval_journal :
    let posts := Config.resolveResource Config.postsDef
    let bounds : Fields := [("to", .str "2024/02/29\u3000"), ("from", .str " 31-01-2024")]
    let store : Store := ⟨[]⟩
    (∃ filters clause, Filters.parse (.obj [("title", .obj bounds)]) = .ok filters ∧
      Filtering.compile Config.journal posts filters = .ok (clause, .without) ∧
      store.satisfies Config.journal posts [("title", .str "2024-02-29T12:00")] clause = .ok true ∧
      store.satisfies Config.journal posts [("title", .str "2024-03-01")] clause = .ok false) ∧
    ∃ filters, Filters.parse (.obj [("to", .str "30/02/2024 ")]) = .ok filters ∧
      Filtering.compile Config.journal posts filters = .error (.invalidDate "30/02/2024") := by
  intro posts bounds store
  have year : (0 : Int) ≤ 2024 ∧ (2024 : Int) ≤ 9999 := by decide
  have blank : ∀ c : Char, Text.isBlank c = true → ∀ d ∈ [c], Text.isBlank d = true :=
    fun _ h => List.forall_mem_singleton.mpr h
  have january : Date.BoundWrittenBy (some ⟨2024, 1, 31⟩) (some " 31-01-2024") := by
    refine .some ⟨⟨⟨year, by decide, by decide⟩, ⟨false, false⟩, [' '], [], ?_, blank _ rfl,
      List.forall_mem_nil _⟩, ?_⟩
    · decide +kernel
    · constructor <;> decide
  have leap : Date.BoundWrittenBy (some ⟨2024, 2, 29⟩) (some "2024/02/29\u3000") := by
    refine .some ⟨⟨⟨year, by decide, by decide⟩, ⟨true, true⟩, [], ['\u3000'], ?_,
      List.forall_mem_nil _, blank _ rfl⟩, ?_⟩
    · decide +kernel
    · constructor <;> decide
  have missing : Date.IsWrittenBy ⟨2024, 2, 30⟩ "30/02/2024 " := by
    refine ⟨⟨year, by decide, by decide⟩, ⟨false, true⟩, [], [' '], ?_, List.forall_mem_nil _,
      blank _ rfl⟩
    decide +kernel
  have hmissing : ¬ Date.IsGregorian ⟨2024, 2, 30⟩ := fun h => absurd (h.february rfl) (by decide)
  have titled : AsksRange posts bounds "title" (.obj [("title", .obj bounds)]) :=
    .column (by decide) rfl rfl rfl
  have stamped : AsksRange posts [("to", .str "30/02/2024 ")] posts.timestampColumn
      (.obj [("to", .str "30/02/2024 ")]) := .timestamp (by simp)
  obtain ⟨filters, hparse, hwithin, _⟩ := range_is_interval titled rfl rfl Config.journal
  obtain ⟨clause, hcompile, hrows⟩ := hwithin _ _ january leap
  obtain ⟨others, hothers, _, hrejected⟩ := range_is_interval stamped rfl rfl Config.journal
  refine ⟨⟨filters, clause, hparse, hcompile, ?_, ?_⟩, others, hothers, ?_⟩
  · exact hrows store _ _ ⟨2024, 2, 29⟩ rfl year (by constructor <;> decide) (by decide +kernel)
  · exact hrows store _ _ ⟨2024, 3, 1⟩ rfl year (by constructor <;> decide) (by decide +kernel)
  · rcases (hrejected _ _ missing hmissing).2 rfl with h | ⟨other, hother, _⟩
    · exact h
    · cases hother

end Records
