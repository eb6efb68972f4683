import DeviceBus.Proofs.Topic.Addresses

/-! Addresses from paths. Splitting a path finds the segments that slashes part in it, so giving them one by one makes the same
address or is refused for the same flaw, and an address is made again from its parts. -/
namespace DeviceBus.Address

inductive Stripped : String → String → Prop
  | lead (rest : String) : Stripped ("/" ++ rest) rest
  | bare {path : String} (other : path.toList.head? ≠ some '/') : Stripped path path

variable {endpoint path rest : String} {a : Address}

theorem stripped_iff : Stripped path rest ↔ Segments.stripLead path.toList = rest.toList := by
  constructor
  · intro stripped
    cases stripped with
    | lead => rw [String.toList_append]; rfl
    | bare other =>
      unfold Segments.stripLead
      split
      · next same => exact absurd (congrArg List.head? same) other
      · rfl
  · intro same
    unfold Segments.stripLead at same
    split at same
    · next more slash =>
      have whole : path = "/" ++ rest := by
        rw [← String.toList_inj, slash, same, String.toList_append]
        rfl
      exact whole ▸ .lead rest
    · next other =>
      rw [String.toList_inj] at same
      subst same
      refine .bare fun slash => ?_
      obtain ⟨more, same⟩ := List.head?_eq_some_iff.mp slash
      exact other more same

private theorem exists_stripped (path : String) : ∃ rest, Stripped path rest :=
  ⟨String.ofList (Segments.stripLead path.toList), stripped_iff.mpr String.toList_ofList.symm⟩

private theorem Stripped.ofPath_eq (stripped : Stripped path rest) (some : rest ≠ "") :
    ofPath endpoint path = ofSegments endpoint (Segments.split rest.toList) := by
  rw [ofPath, stripped_iff.mp stripped]
  split
  · next empty => exact absurd (String.toList_eq_nil_iff.mp empty) some
  · rfl

private theorem Stripped.ofPath_empty (stripped : Stripped path "") : ofPath endpoint path = .error .emptyPath := by
  rw [ofPath, stripped_iff.mp stripped]
  rfl

theorem ofPath_ok_iff : ofPath endpoint path = .ok a ↔
    ∃ rest pieces, Stripped path rest ∧ rest ≠ "" ∧ "/".intercalate pieces = rest ∧
      (∀ s ∈ endpoint :: pieces, ValidSegment s) ∧ a.segments = endpoint :: pieces := by
  constructor
  · intro made
    obtain ⟨rest, stripped⟩ := exists_stripped path
    by_cases empty : rest = ""
    · rw [(empty ▸ stripped : Stripped path "").ofPath_empty] at made
      cases made
    · rw [stripped.ofPath_eq empty] at made
      obtain ⟨rfl, valid⟩ := ofSegments_ok made
      obtain ⟨-, whole, -⟩ := Segments.split_eq_iff.mp rfl
      exact ⟨rest, _, stripped, empty, whole, valid, rfl⟩
  · rintro ⟨rest, pieces, stripped, some, whole, valid, parts⟩
    obtain ⟨rfl, rfl⟩ := List.cons.inj parts
    have pieces : a.resource ≠ [] := by
      rintro none
      rw [none, String.intercalate_nil] at whole
      exact some whole.symm
    have free : ∀ s ∈ a.resource, '/' ∉ s.toList := fun s member =>
      (valid s (List.mem_cons_of_mem _ member)).no_slash
    rw [stripped.ofPath_eq some, Segments.split_eq_iff.mpr ⟨pieces, whole, free⟩]
    exact ofSegments_of_valid a valid

private theorem ofPath_resourceUri (accepted : a.Accepted) : ofPath a.endpoint a.resourceUri = .ok a := by
  obtain ⟨resource, valid⟩ := accepted.segments_valid
  obtain ⟨first, others, same⟩ := List.exists_cons_of_ne_nil resource
  have lead : a.resourceUri = "/" ++ "/".intercalate a.resource := by
    rw [resourceUri, same, ← String.toList_inj, String.toList_append, Segments.toList_intercalate, Segments.toList_join,
      Segments.toList_join]
    rfl
  have some : "/".intercalate a.resource ≠ "" := by
    have here := (valid first (by simp [segments, same])).nonempty
    rw [same, ne_eq, ← String.toList_inj, Segments.toList_intercalate]
    intro empty
    exact here (String.toList_eq_nil_iff.mp (List.append_eq_nil_iff.mp empty).1)
  exact ofPath_ok_iff.mpr ⟨_, a.resource, lead ▸ .lead _, some, rfl, valid, rfl⟩

private theorem ofPath_eq_ofObject (endpoint : String) {object instanceId resource : String}
    (free : ∀ s ∈ [object, instanceId, resource], '/' ∉ s.toList) :
    ofPath endpoint ("/" ++ object ++ "/" ++ instanceId ++ "/" ++ resource) =
      ofObject endpoint object instanceId resource := by
  have parts : "/".intercalate [object, instanceId, resource] = object ++ "/" ++ instanceId ++ "/" ++ resource := by
    simp only [String.intercalate_cons_cons, String.intercalate_singleton, String.append_assoc]
  have lead : Stripped ("/" ++ object ++ "/" ++ instanceId ++ "/" ++ resource)
      (object ++ "/" ++ instanceId ++ "/" ++ resource) := by
    simp only [String.append_assoc]
    exact .lead _
  have some : object ++ "/" ++ instanceId ++ "/" ++ resource ≠ "" := by
    rw [ne_eq, ← String.toList_inj]
    simp
  rw [lead.ofPath_eq some, Segments.split_eq_iff.mpr ⟨List.cons_ne_nil _ _, parts, free⟩, ofObject]

/-- Both constructors agree on the path that names an object, the flaw included that they refuse it for; an address is made
again from its parts; and a path makes an address exactly if it is made of valid segments, which those of the address
then are. -/
theorem constructors_agree :
    (∀ endpoint object instanceId resource : String, '/' ∉ object.toList → '/' ∉ instanceId.toList →
      '/' ∉ resource.toList →
      ofPath endpoint ("/" ++ object ++ "/" ++ instanceId ++ "/" ++ resource) =
        ofObject endpoint object instanceId resource) ∧
    (∀ a : Address, a.Accepted → ofPath a.endpoint a.resourceUri = .ok a) ∧
    ∀ (endpoint path : String) (a : Address), ofPath endpoint path = .ok a ↔
      ∃ rest pieces, Stripped path rest ∧ rest ≠ "" ∧ "/".intercalate pieces = rest ∧
        (∀ s ∈ endpoint :: pieces, ValidSegment s) ∧ a.segments = endpoint :: pieces := by
  refine ⟨?_, fun a => ofPath_resourceUri, fun endpoint path a => ofPath_ok_iff⟩
  intro endpoint object instanceId resource first second third
  exact ofPath_eq_ofObject endpoint (by simpa using ⟨first, second, third⟩)

theorem constructors_agree_of_flaws :
    ofPath "ep" ("/" ++ "303" ++ "/" ++ "+" ++ "/" ++ "") = .error (.reserved "+") ∧
      ofObject "ep" "303" "+" "" = .error (.reserved "+") ∧
      ofPath "ep" "/dev/mfg" = .ok ⟨"ep", ["dev", "mfg"]⟩ ∧
      ofPath "ep" (resourceUri ⟨"ep", ["dev", "mfg"]⟩) = .ok ⟨"ep", ["dev", "mfg"]⟩ := by
  obtain ⟨agree, again, -⟩ := constructors_agree
  have refused : ofObject "ep" "303" "+" "" = .error (.reserved "+") := rfl
  have made : ofPath "ep" "/dev/mfg" = .ok ⟨"ep", ["dev", "mfg"]⟩ := rfl
  exact ⟨(agree "ep" "303" "+" "" (by decide) (by decide) (by decide)).trans refused, refused, made, again _ (.ofPath made)⟩

end DeviceBus.Address
