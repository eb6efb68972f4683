import DeviceBus.Session.Trace

/-! The calls and the polled events of a trace, its log lines left out. -/
namespace DeviceBus.Session

open Broker (Call Event)

def Entry.call? : Entry → Option Call
  | call c => some c
  | poll _ | log _ => none

def Entry.event? : Entry → Option Event
  | poll event => some event
  | call _ | log _ => none

def callsIn (entries : List Entry) : List Call := entries.filterMap Entry.call?

def pollsIn (entries : List Entry) : List Event := entries.filterMap Entry.event?

section Parts

variable (entries more : List Entry)

@[simp] theorem callsIn_nil : callsIn [] = [] := rfl

@[simp] theorem callsIn_call (c : Call) : callsIn (.call c :: entries) = c :: callsIn entries := rfl

@[simp] theorem callsIn_poll (event : Event) : callsIn (.poll event :: entries) = callsIn entries := rfl

@[simp] theorem callsIn_log (notice : Notice) : callsIn (.log notice :: entries) = callsIn entries := rfl

@[simp] theorem callsIn_append : callsIn (entries ++ more) = callsIn entries ++ callsIn more :=
  List.filterMap_append

@[simp] theorem pollsIn_nil : pollsIn [] = [] := rfl

@[simp] theorem pollsIn_call (c : Call) : pollsIn (.call c :: entries) = pollsIn entries := rfl

@[simp] theorem pollsIn_poll (event : Event) : pollsIn (.poll event :: entries) = event :: pollsIn entries := rfl

@[simp] theorem pollsIn_log (notice : Notice) : pollsIn (.log notice :: entries) = pollsIn entries := rfl

@[simp] theorem pollsIn_append : pollsIn (entries ++ more) = pollsIn entries ++ pollsIn more :=
  List.filterMap_append

end Parts

@[simp] theorem callsIn_leave (failures : Failures) : callsIn (leave failures) = [.disconnect] := by
  unfold leave
  cases failures.disconnect <;> rfl

@[simp] theorem pollsIn_leave (failures : Failures) : pollsIn (leave failures) = [] := by
  unfold leave
  cases failures.disconnect <;> rfl

def Silent (entries : List Entry) : Prop := ∀ entry ∈ entries, ∃ notice, entry = .log notice

theorem Silent.calls {entries : List Entry} (silent : Silent entries) : callsIn entries = [] := by
  refine List.filterMap_eq_nil_iff.mpr fun entry member => ?_
  obtain ⟨notice, rfl⟩ := silent entry member
  rfl

theorem Silent.polls {entries : List Entry} (silent : Silent entries) : pollsIn entries = [] := by
  refine List.filterMap_eq_nil_iff.mpr fun entry member => ?_
  obtain ⟨notice, rfl⟩ := silent entry member
  rfl

theorem exists_silent_of_leave (failures : Failures) :
    ∃ farewell, leave failures = .call .disconnect :: farewell ∧ Silent farewell := by
  refine ⟨_, rfl, ?_⟩
  cases failures.disconnect with
  | none => exact List.forall_mem_nil _
  | some info => exact List.forall_mem_singleton.mpr ⟨_, rfl⟩

theorem silent_map {α : Type} (notice : α → Notice) (items : List α) :
    Silent (items.map fun item => .log (notice item)) := by
  intro entry member
  obtain ⟨item, -, rfl⟩ := List.mem_map.mp member
  exact ⟨notice item, rfl⟩

theorem Silent.append {entries more : List Entry} (first : Silent entries) (second : Silent more) :
    Silent (entries ++ more) := by
  intro entry member
  rcases List.mem_append.mp member with early | late
  · exact first entry early
  · exact second entry late

end DeviceBus.Session
