import TagQuery.Proofs.Operations
import TagQuery.Proofs.OptionsText

/-! Settings are a map in which the last write wins. A run of operations is compared with its own
history: which writes it asked for, and which of them succeeded. Main statement: a key has the value
of the last successful write of it, and so stored options are found again, whatever else is done to
the catalogue before they are stored anew. -/
namespace TagQuery

theorem Catalogue.setting?_putSetting {c : Catalogue} (h : c.has .settings = true) (s : Setting)
    (key : List Char) :
    (c.putSetting s).setting? key = if s.key = key then some s.value else c.setting? key := by
  obtain ⟨rows, present⟩ := Option.isSome_iff_exists.mp h
  simp only [putSetting, setting?, present, Option.map_some, Option.getD_some, List.find?_cons]
  by_cases same : s.key = key
  · simp [same]
  · have others : (rows.filter (·.key != s.key)).find? (·.key == key) =
        rows.find? (·.key == key) := by
      rw [List.find?_filter]
      congr 1
      funext row
      by_cases found : row.key = key
      · simp [found, Ne.symm same]
      · simp [found]
    rw [others, beq_eq_false_iff_ne.mpr same, if_neg same]

namespace Connection

/-- The setting that an operation stores if it succeeds. -/
def Operation.setting? : Operation → Option Setting
  | .setSetting key value => some ⟨key, value⟩
  | .saveOptions options => some ⟨optionsKey, options.render⟩
  | _ => none

def stored? (step : Operation × Except StoreError Reply) : Option Setting :=
  if step.2.isOk then step.1.setting? else none

/-- The value of the last successful write of exactly this key. -/
def lastStored (key : List Char) (history : List (Operation × Except StoreError Reply)) :
    Option (List Char) :=
  ((history.filterMap stored?).filter (·.key == key)).getLast?.map (·.value)

theorem lastStored_cons (key : List Char) (step : Operation × Except StoreError Reply)
    (history : List (Operation × Except StoreError Reply)) :
    lastStored key (step :: history) = (lastStored key history).or (lastStored key [step]) := by
  have split : step :: history = [step] ++ history := rfl
  unfold lastStored
  rw [split, List.filterMap_append, List.filter_append, List.getLast?_append, Option.map_or]

theorem lastStored_singleton (key : List Char) (step : Operation × Except StoreError Reply) :
    lastStored key [step] = (stored? step).bind fun s =>
      if s.key = key then some s.value else none := by
  cases stored : stored? step with
  | none => simp [lastStored, stored]
  | some s =>
    by_cases same : s.key = key
    · simp [lastStored, stored, same]
    · simp [lastStored, stored, same]

/-- Only the writes of settings change them, unless their table is dropped. -/
theorem Operation.settings_change {operation : Operation} (kept : operation ≠ .drop .settings)
    (c : Catalogue) : (operation.change c).settings =
      match operation.setting? with
      | some s => (c.putSetting s).settings
      | none => c.settings := by
  cases operation with
  | insert row => cases row <;> rfl
  | setSetting | saveOptions | getSetting | loadOptions | search | setReadOnly => rfl
  | drop table =>
    cases table with
    | settings => exact absurd rfl kept
    | metadata | tags | titles => rfl

section Run

variable {c : Connection} (present : c.catalogue.has .settings = true)
include present

/-- One operation stores what its reply says, and leaves all other keys as they are. -/
theorem setting?_serve {operation : Operation} (kept : operation ≠ .drop .settings) :
    (c.serve operation).2.catalogue.has .settings = true ∧
      ∀ key, (c.serve operation).2.catalogue.setting? key =
        (lastStored key [(operation, (c.serve operation).1)]).or (c.catalogue.setting? key) := by
  have left : (c.serve operation).2.catalogue.settings =
      match stored? (operation, (c.serve operation).1) with
      | some s => (c.catalogue.putSetting s).settings
      | none => c.catalogue.settings := by
    rw [catalogue_serve, stored?]
    split
    · exact Operation.settings_change kept c.catalogue
    · rfl
  cases stored : stored? (operation, (c.serve operation).1) with
  | none =>
    rw [stored] at left
    simp only [Catalogue.has, Catalogue.setting?, left, lastStored_singleton, stored]
    exact ⟨present, fun key => rfl⟩
  | some s =>
    rw [stored] at left
    have put := Catalogue.setting?_putSetting present s
    simp only [Catalogue.has, left, lastStored_singleton, stored]
    refine ⟨?_, fun key => ?_⟩
    · simpa [Catalogue.putSetting, Catalogue.has] using present
    · have moved : (c.serve operation).2.catalogue.setting? key =
          (c.catalogue.putSetting s).setting? key := by
        simp only [Catalogue.setting?, left]
      rw [moved, put key, Option.bind_some]
      split <;> rfl

/-- After a run a key has the value of the last successful write of it in the run, or the value from
before. -/
theorem getSetting_after {operations : List Operation} (kept : .drop .settings ∉ operations)
    (key : List Char) : (c.after operations).getSetting key =
      .ok ((lastStored key (c.history operations)).or (c.catalogue.setting? key)) := by
  induction operations generalizing c with
  | nil => exact if_pos present
  | cons operation operations ih =>
    obtain ⟨first, rest⟩ := not_or.mp (mt List.mem_cons.mpr kept)
    obtain ⟨present', stored⟩ := setting?_serve present (Ne.symm first)
    rw [after_cons, ih present' rest, history, lastStored_cons, stored key, Option.or_assoc]

end Run

theorem setting?_of_saved {c : Connection} {options : Options}
    (h : (c.serve (.saveOptions options)).1 = .ok .done) :
    (c.serve (.saveOptions options)).2.catalogue.has .settings = true ∧
      (c.serve (.saveOptions options)).2.catalogue.setting? optionsKey = some options.render := by
  have present : c.catalogue.has .settings = true := by
    cases result : c.saveOptions options with
    | error e =>
      simp only [serve, result] at h
      cases h
    | ok next => exact (setSetting_eq_ok_iff.mp result).1
  have other : Operation.saveOptions options ≠ .drop .settings := nofun
  obtain ⟨present', stored⟩ := setting?_serve present other
  refine ⟨present', ?_⟩
  rw [stored, lastStored_singleton, h]
  simp [stored?, Operation.setting?, Except.isOk, Except.toBool]

theorem loadOptions_of_stored {c : Connection} {options : Options}
    (h : c.getSetting optionsKey = .ok (some options.render)) :
    c.loadOptions = .ok (some options, []) := by
  simp only [loadOptions, h, Options.parse_render]

/-- In a run that does not drop the settings, a key has the value of the last successful write of
exactly this key, or none if there was none since the table was empty. And options that were stored
with success are loaded again, as long as no later operation writes their key with success. -/
theorem settings_last_write_wins {c : Connection} {operations : List Operation}
    (present : c.catalogue.has .settings = true) (kept : .drop .settings ∉ operations) :
    (∀ key, (c.after operations).getSetting key =
      .ok ((lastStored key (c.history operations)).or (c.catalogue.setting? key))) ∧
    (c.catalogue.settings = some [] → ∀ key, (c.after operations).getSetting key =
      .ok (lastStored key (c.history operations))) ∧
    ∀ (before later : List Operation) (options : Options),
      operations = before ++ .saveOptions options :: later →
      ((c.after before).serve (.saveOptions options)).1 = .ok .done →
      lastStored optionsKey ((c.after (before ++ [.saveOptions options])).history later) = none →
      (c.after operations).loadOptions = .ok (some options, []) := by
  refine ⟨getSetting_after present kept, fun empty key => ?_, ?_⟩
  · have none_before : c.catalogue.setting? key = none := by
      simp [Catalogue.setting?, empty]
    rw [getSetting_after present kept, none_before, Option.or_none]
  · rintro before later options rfl saved unwritten
    have kept' : .drop .settings ∉ later := fun dropped =>
      kept (List.mem_append_right before (List.mem_cons_of_mem _ dropped))
    have reached : c.after (before ++ [.saveOptions options]) =
        ((c.after before).serve (.saveOptions options)).2 :=
      after_append c before [.saveOptions options]
    rw [reached] at unwritten
    obtain ⟨present', stored⟩ := setting?_of_saved saved
    apply loadOptions_of_stored
    rw [after_append, after_cons, getSetting_after present' kept' optionsKey, stored, unwritten]
    rfl

private def roomy : Options := ⟨false, 18446744073709551615, true⟩

private def earlier : List Operation := [.setSetting ['k'] ['1'], .insert (.metadata ⟨1, none⟩)]

/-- A write, one that fails for want of its table, and two that are refused. -/
private def later : List Operation :=
  [.setSetting ['k'] ['2'], .drop .titles, .insert (.title ⟨1, ['t'], 0⟩), .search {} [],
    .setReadOnly true, .setSetting ['k'] ['3'], .saveOptions {}]

theorem settings_last_write_wins_refused :
    ((({} : Connection).history (earlier ++ .saveOptions roomy :: later)).map (·.2.isOk) =
        [true, true, true, true, true, false, true, true, false, false]) ∧
      (({} : Connection).after (earlier ++ .saveOptions roomy :: later)).getSetting ['k'] =
        .ok (some ['2']) ∧
      (({} : Connection).after (earlier ++ .saveOptions roomy :: later)).loadOptions =
        .ok (some roomy, []) := by
  have kept : Operation.drop .settings ∉ earlier ++ .saveOptions roomy :: later := by decide
  have present : ({} : Connection).catalogue.has .settings = true := rfl
  obtain ⟨-, settings, options⟩ := settings_last_write_wins present kept
  have stored : lastStored ['k']
      (({} : Connection).history (earlier ++ .saveOptions roomy :: later)) = some ['2'] := by
    decide +kernel
  have refused : lastStored optionsKey
      ((({} : Connection).after (earlier ++ [.saveOptions roomy])).history later) = none := by
    decide +kernel
  refine ⟨by decide +kernel, ?_, options earlier later roomy rfl rfl refused⟩
  rw [settings rfl, stored]

end Connection

end TagQuery
