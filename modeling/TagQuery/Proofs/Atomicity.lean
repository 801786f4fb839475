import TagQuery.Proofs.Limits
import TagQuery.Proofs.Operations
import TagQuery.Proofs.OptionsText
import TagQuery.Workspace

/-! A write is refused for want of its table or because writes are not accepted, and a search for
its statement, its tables, its parameters or its patterns. Main statement: whatever the state of the
open catalogue, a write that fails is reported as a failed write and leaves the workspace as it was,
and reading changes no table and is reported as a failed read when it fails; and options are absent
exactly if the settings can be read and hold none. -/
namespace TagQuery

def SearchFault.Cause {α : Type} (c : Catalogue) (p : Plan α) (params : List (List Char)) :
    SearchFault → Prop
  | .tooManyPlaceholders _ | .tooManySources | .tooDeep | .tooManyTables => ¬ p.WithinLimits
  | .missing table => table ∈ p.tables ∧ c.has table = false
  -- parameters are counted no further than one too many
  | .paramCount given needed => needed = p.params.length ∧ params.length ≠ needed ∧
      given = min params.length (needed + 1)
  -- a list of names without any cannot be spelled, and no clause leads to one
  | .unreadable => ¬ p.Worded
  | .patternTooLong => ∃ pattern ∈ params, patternLimit < Text.utf8Length pattern

theorem SearchFault.code_failure (fault : SearchFault) : fault.failure.code = .readFailed := by
  cases fault <;> rfl

section Faults

variable {α : Type} {c : Catalogue} {p : Plan α} {params : List (List Char)} {fault : SearchFault}

theorem SearchFault.cause_of_limit (beyond : ¬ p.WithinLimits) (h : fault ∈ p.limitFaults) :
    fault.Cause c p params := by
  simp only [Plan.limitFaults, List.mem_cons, List.not_mem_nil, or_false] at h
  rcases h with rfl | rfl | rfl | rfl <;> exact beyond

theorem Catalogue.cause_of_prepare (h : c.prepare p = .error fault) :
    fault.Cause c p params := by
  unfold prepare at h
  split at h
  · next unreadable =>
    cases h
    refine SearchFault.cause_of_limit (fun within => ?_) (Plan.readingFault?_mem unreadable)
    rw [within.readable] at unreadable
    cases unreadable
  · split at h
    · next table missing =>
      cases h
      exact ⟨List.mem_of_find?_eq_some missing, by simpa using List.find?_some missing⟩
    · split at h
      · next deep =>
        cases h
        exact fun within => absurd within.depth (Nat.not_le_of_lt deep)
      · split at h
        · next many =>
          cases h
          exact fun within => absurd within.tables (by omega)
        · cases h

/-- A search fails only over its statement, its tables, the number of its parameters or the length
of one of them. -/
theorem Catalogue.cause_of_search (h : c.search p params = .error fault) :
    fault.Cause c p params := by
  unfold search at h
  split at h
  · next unprepared =>
    cases h
    exact cause_of_prepare unprepared
  · split at h
    · next unbound =>
      cases h
      exact ⟨rfl, Plan.length_of_bind?_eq_none unbound, rfl⟩
    · next bound binds =>
      split at h
      · next failed =>
        cases h
        obtain ⟨rfl, long⟩ := Plan.blames_of_run failed
        rwa [Plan.params_bind? binds] at long
      · next ran =>
        split at h
        · cases h
        · next unreadable =>
          cases h
          intro worded
          rw [Plan.answer?_of_run worded binds ran] at unreadable
          cases unreadable

end Faults

namespace Connection

def Accepts (c : Connection) (target : WriteTarget) : Prop :=
  c.catalogue.has target.table = true ∧ c.readOnly = false

theorem write_cases (c : Connection) (target : WriteTarget) (change : Catalogue → Catalogue) :
    c.Accepts target ∧ c.write target change = .ok { c with catalogue := change c.catalogue } ∨
      ¬ c.Accepts target ∧ ∃ fault, c.write target change = .error (.write target fault) := by
  unfold write Accepts
  cases c.catalogue.has target.table with
  | false => simp
  | true =>
    cases c.readOnly with
    | true => simp
    | false => simp

inductive Write where
  | insert (row : Insert)
  | setSetting (key value : List Char)
  | saveOptions (options : Options)

namespace Write

def operation : Write → Operation
  | .insert row => .insert row
  | .setSetting key value => .setSetting key value
  | .saveOptions options => .saveOptions options

def target : Write → WriteTarget
  | .insert row => row.target
  | .setSetting key _ => .setting key
  | .saveOptions _ => .setting optionsKey

def run (write : Write) (c : Connection) : Except StoreError Connection :=
  match write with
  | .insert row => c.insert row
  | .setSetting key value => c.setSetting key value
  | .saveOptions options => c.saveOptions options

theorem run_eq (write : Write) (c : Connection) :
    write.run c = c.write write.target fun catalogue => write.operation.change catalogue := by
  cases write with
  | insert row => exact insert_eq c row
  | setSetting | saveOptions => rfl

end Write

def Operation.isRead : Operation → Bool
  | .getSetting _ | .loadOptions | .search _ _ => true
  | .insert _ | .setSetting _ _ | .saveOptions _ | .setReadOnly _ | .drop _ => false

theorem serve_of_isRead (c : Connection) {operation : Operation} (h : operation.isRead = true) :
    (c.serve operation).2 = c := by
  cases operation with
  | getSetting | loadOptions | search => rfl
  | insert | setSetting | saveOptions | setReadOnly | drop => cases h

theorem search_eq_error_iff {c : Connection} {p : Plan (List Char)} {params : List (List Char)}
    {e : StoreError} : c.search p params = .error e ↔
      ∃ fault, c.catalogue.search p params = .error fault ∧ e = .search fault := by
  unfold search
  cases c.catalogue.search p params <;> simp [Except.mapError, eq_comm]

theorem getSetting_eq_error_iff {c : Connection} {key : List Char} {e : StoreError} :
    c.getSetting key = .error e ↔ c.catalogue.has .settings = false ∧ e = .readSetting key := by
  unfold getSetting
  cases c.catalogue.has .settings with
  | true => simp
  | false => simp [eq_comm]

theorem loadOptions_eq_error_iff {c : Connection} {e : StoreError} :
    c.loadOptions = .error e ↔ c.getSetting optionsKey = .error e := by
  unfold loadOptions
  split
  · next failed => rw [failed, Except.error.injEq, Except.error.injEq]
  · next absent => simp [absent]
  · next stored => split <;> simp [stored]

/-- What cannot be read counts as absent, and what cannot be looked up does not. -/
theorem loadOptions_eq_none_iff {c : Connection} :
    (∃ events, c.loadOptions = .ok (none, events)) ↔ c.getSetting optionsKey = .ok none ∨
      ∃ text, c.getSetting optionsKey = .ok (some text) ∧ ∀ o, ¬ Options.Holds text o := by
  unfold loadOptions
  split
  · next failed => simp [failed]
  · next absent => simp [absent]
  · next text stored =>
    split
    · next o read => simp [stored, ← Options.parse_eq_ok_iff, read]
    · next unread => simp [stored, ← Options.parse_eq_ok_iff, unread]

/-- In a run, what failed has left nothing behind: the tables are those that the operations with
success have made. -/
theorem catalogue_after (c : Connection) (operations : List Operation) :
    (c.after operations).catalogue = ((c.history operations).filter (·.2.isOk)).foldl
      (fun catalogue step => step.1.change catalogue) c.catalogue := by
  induction operations generalizing c with
  | nil => rfl
  | cons operation operations ih =>
    rw [after_cons, ih, catalogue_serve, history]
    cases replied : (c.serve operation).1.isOk with
    | true => simp [replied]
    | false => simp [replied]

end Connection

namespace Workspace

open Connection

/-- A result that is a failure, if at all, of the catalogue and with this code. -/
def FailsWith {α : Type} (code : Code) (result : Except Refusal α) : Prop :=
  ∀ refusal, result = .error refusal →
    ∃ e : StoreError, refusal = .store e ∧ e.failure.code = code

section Open

variable {w : Workspace} {c : Connection} (opened : w.connection = some c)
include opened

theorem query_eq {α : Type} (f : Connection → Except StoreError α) :
    w.query f = (f c).mapError .store := by
  rw [query, opened]

theorem query_eq_ok_iff {α : Type} {f : Connection → Except StoreError α} {a : α} :
    w.query f = .ok a ↔ f c = .ok a := by
  rw [query_eq opened]
  cases f c <;> simp [Except.mapError]

theorem query_eq_error_iff {α : Type} {f : Connection → Except StoreError α} {refusal : Refusal} :
    w.query f = .error refusal ↔ ∃ e, f c = .error e ∧ refusal = .store e := by
  rw [query_eq opened]
  cases f c <;> simp [Except.mapError, eq_comm]

theorem change_write (write : Write) :
    c.Accepts write.target ∧ w.change write.run =
        (w.keep { c with catalogue := write.operation.change c.catalogue }, .ok ()) ∨
      ¬ c.Accepts write.target ∧ ∃ e : StoreError,
        w.change write.run = (w, .error (.store e)) ∧ e.failure.code = .writeFailed := by
  have written := c.write_cases write.target fun catalogue => write.operation.change catalogue
  rw [← write.run_eq c] at written
  rcases written with ⟨accepts, done⟩ | ⟨refuses, fault, failed⟩
  · refine .inl ⟨accepts, ?_⟩
    rw [change, query_eq opened, done]
    rfl
  · refine .inr ⟨refuses, .write write.target fault, ?_, rfl⟩
    rw [change, query_eq opened, failed]
    rfl

theorem runPlan_error {p : Plan (List Char)} {params : List (List Char)} {refusal : Refusal}
    (h : (w.runPlan p params).1 = .error refusal) :
    ∃ fault : SearchFault, refusal = .store (.search fault) ∧ fault.Cause c.catalogue p params ∧
      (StoreError.search fault).failure.code = .readFailed := by
  unfold runPlan at h
  split at h
  · cases h
  · next asked =>
    cases h
    obtain ⟨e, failed, rfl⟩ := (query_eq_error_iff opened).mp asked
    obtain ⟨fault, unfound, rfl⟩ := search_eq_error_iff.mp failed
    exact ⟨fault, rfl, Catalogue.cause_of_search unfound, fault.code_failure⟩

theorem search_eq (line : List Char) (params : Option (List (List Char))) :
    (w.search line params).state = { w with searcher := (w.searcher.compile line).state } ∧
      (w.search line params).value = (w.runPlan (w.searcher.compile line).value
        (params.getD (w.searcher.compile line).value.params)).1 := by
  unfold search
  rw [if_neg (by simp [opened])]
  exact ⟨rfl, rfl⟩

theorem failsWith_getSetting (key : List Char) :
    FailsWith .readFailed (w.query (·.getSetting key)) := by
  intro refusal asked
  obtain ⟨e, failed, rfl⟩ := (query_eq_error_iff opened).mp asked
  obtain ⟨-, rfl⟩ := getSetting_eq_error_iff.mp failed
  exact ⟨_, rfl, rfl⟩

theorem failsWith_loadOptions : FailsWith .readFailed w.loadOptions.1 := by
  intro refusal h
  unfold loadOptions at h
  split at h
  · cases h
  · next asked =>
    cases h
    obtain ⟨e, failed, rfl⟩ := (query_eq_error_iff opened).mp asked
    obtain ⟨-, rfl⟩ := getSetting_eq_error_iff.mp (loadOptions_eq_error_iff.mp failed)
    exact ⟨_, rfl, rfl⟩

theorem loadOptions_eq_none : w.loadOptions.1 = .ok none ↔
    w.query (·.getSetting optionsKey) = .ok none ∨
      ∃ text, w.query (·.getSetting optionsKey) = .ok (some text) ∧
        ∀ o, ¬ Options.Holds text o := by
  simp only [query_eq_ok_iff opened, ← loadOptions_eq_none_iff]
  unfold loadOptions
  split
  · next options events asked =>
    rw [(query_eq_ok_iff opened).mp asked]
    simp
  · next asked =>
    obtain ⟨e, failed, rfl⟩ := (query_eq_error_iff opened).mp asked
    rw [failed]
    simp

end Open

/-- Whatever the state of the open catalogue, a write that fails leaves the workspace as it was and
a read changes nothing but the lines that are remembered; the code of a failure tells which of the
two it was. Options are absent exactly if their setting can be looked up and is missing or holds
none. -/
theorem failures_leave_nothing {w : Workspace} {c : Connection} (opened : w.connection = some c) :
    (∀ write : Write,
      c.Accepts write.target ∧ w.change write.run =
          (w.keep { c with catalogue := write.operation.change c.catalogue }, .ok ()) ∨
        ¬ c.Accepts write.target ∧ ∃ e : StoreError,
          w.change write.run = (w, .error (.store e)) ∧ e.failure.code = .writeFailed) ∧
    (∀ line params, (w.search line params).state =
        { w with searcher := (w.searcher.compile line).state } ∧
      FailsWith .readFailed (w.search line params).value) ∧
    (∀ (p : Plan (List Char)) params refusal, (w.runPlan p params).1 = .error refusal →
      ∃ fault : SearchFault, refusal = .store (.search fault) ∧
        fault.Cause c.catalogue p params ∧
        (StoreError.search fault).failure.code = .readFailed) ∧
    (∀ key, FailsWith .readFailed (w.query (·.getSetting key)) ∧
      ((w.query (·.getSetting key)).isOk = c.catalogue.has .settings)) ∧
    FailsWith .readFailed w.loadOptions.1 ∧
    (w.loadOptions.1 = .ok none ↔
      w.query (·.getSetting optionsKey) = .ok none ∨
        ∃ text, w.query (·.getSetting optionsKey) = .ok (some text) ∧
          ∀ o, ¬ Options.Holds text o) ∧
    (∀ operation : Operation, operation.isRead = true → (c.serve operation).2 = c) ∧
    ∀ operations, (c.after operations).catalogue =
      ((c.history operations).filter (·.2.isOk)).foldl
        (fun catalogue step => step.1.change catalogue) c.catalogue := by
  refine ⟨change_write opened, fun line params => ?_, fun p params refusal => runPlan_error opened,
    fun key => ⟨failsWith_getSetting opened key, ?_⟩, failsWith_loadOptions opened,
    loadOptions_eq_none opened, fun _ => c.serve_of_isRead, c.catalogue_after⟩
  · obtain ⟨state, value⟩ := search_eq opened line params
    refine ⟨state, fun refusal failed => ?_⟩
    rw [value] at failed
    obtain ⟨fault, rfl, -, code⟩ := runPlan_error opened failed
    exact ⟨_, rfl, code⟩
  · rw [query_eq opened, getSetting]
    cases c.catalogue.has .settings <;> rfl

private def damaged : Connection where
  catalogue := { tags := none, settings := some [⟨optionsKey, ['\x7b']⟩] }
  readOnly := true

/-- Its tags are lost, its options are cut short, and it refuses writes. -/
private def stuck : Workspace := { connection := some damaged, searcher := .new {} }

theorem failures_leave_nothing_damaged :
    (∃ e : StoreError,
      stuck.change (·.insertTag ⟨1, none, ['x'], 0⟩) = (stuck, .error (.store e)) ∧
        e.failure.code = .writeFailed) ∧
    (∃ e : StoreError, stuck.change (·.saveOptions {}) = (stuck, .error (.store e)) ∧
      e.failure.code = .writeFailed) ∧
    (∃ e : StoreError, (stuck.search ['x'] none).value = .error (.store e) ∧
      e.failure.code = .readFailed) ∧
    (∃ fault : SearchFault, (stuck.runPlan {} [['x']]).1 = .error (.store (.search fault)) ∧
      fault.Cause damaged.catalogue ({} : Plan (List Char)) [['x']]) ∧
    stuck.loadOptions.1 = .ok none ∧
    ∃ text, stuck.query (·.getSetting optionsKey) = .ok (some text) ∧
      ∀ o, ¬ Options.Holds text o := by
  have opened : stuck.connection = some damaged := rfl
  obtain ⟨writes, searches, plans, -, -, absent, -, -⟩ := failures_leave_nothing opened
  have refused (target : WriteTarget) : ¬ damaged.Accepts target := fun accepts =>
    absurd accepts.2 (by decide)
  refine ⟨?_, ?_, ?_, ?_, rfl, ?_⟩
  · obtain ⟨accepts, -⟩ | ⟨-, failed⟩ := writes (.insert (.tag ⟨1, none, ['x'], 0⟩))
    · exact absurd accepts (refused _)
    · exact failed
  · obtain ⟨accepts, -⟩ | ⟨-, failed⟩ := writes (.saveOptions {})
    · exact absurd accepts (refused _)
    · exact failed
  · obtain ⟨e, failed, code⟩ := (searches ['x'] none).2 (.store (.search (.missing .tags))) rfl
    cases failed
    exact ⟨_, rfl, code⟩
  · obtain ⟨fault, failed, cause, -⟩ :=
      plans {} [['x']] (.store (.search (.paramCount 1 0))) rfl
    cases failed
    exact ⟨_, rfl, cause⟩
  · obtain unset | stored := absent.mp rfl
    · cases unset
    · exact stored

end Workspace

end TagQuery
