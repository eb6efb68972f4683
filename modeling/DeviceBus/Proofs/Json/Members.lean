import DeviceBus.Proofs.Json.Grammar

/-! Members of an object. Each one is put in its place among the keys, which changes nothing where the keys ascend anyway;
under every key the last member that was written counts. -/
namespace DeviceBus.Json

section Order

private theorem insertMember_last {key : String} {value : Json} {members : List (String × Json)}
    (last : ∀ m ∈ members, m.1 < key) : insertMember key value members = members ++ [(key, value)] := by
  induction members with
  | nil => rfl
  | cons m members ih =>
    have before := last m List.mem_cons_self
    have rest := ih fun m member => last m (List.mem_cons_of_mem _ member)
    rw [insertMember, if_neg (String.lt_asymm before), if_neg, rest]
    · rfl
    · rintro rfl
      exact String.lt_irrefl _ before

private theorem foldl_insertMember (members first : List (String × Json))
    (ascending : ((first ++ members).map Prod.fst).Pairwise (· < ·)) :
    members.foldl (fun members (key, value) => insertMember key value members) first = first ++ members := by
  induction members generalizing first with
  | nil => exact (List.append_nil first).symm
  | cons m members ih =>
    have last : ∀ earlier ∈ first, earlier.1 < m.1 := by
      intro earlier member
      rw [List.map_append, List.pairwise_append] at ascending
      exact ascending.2.2 _ (List.mem_map_of_mem member) _ List.mem_cons_self
    rw [List.append_cons] at ascending ⊢
    rw [← ih _ ascending, List.foldl_cons]
    exact congrArg (List.foldl _ · members) (insertMember_last last)

theorem ofMembers_ascending {members : List (String × Json)}
    (ascending : (members.map Prod.fst).Pairwise (· < ·)) : ofMembers members = .object members := by
  rw [ofMembers, foldl_insertMember members [] ascending, List.nil_append]

end Order

section Lookup

private theorem member?_cons (m : String × Json) (members : List (String × Json)) (key : String) :
    member? (m :: members) key = if key = m.1 then some m.2 else member? members key := by
  rw [member?, List.lookup_cons]
  split
  · next same => rw [if_pos (beq_iff_eq.mp same)]
  · next other => rw [if_neg (ne_of_beq_false other), member?]

private theorem member?_insertMember (key : String) (value : Json) (members : List (String × Json)) (asked : String) :
    member? (insertMember key value members) asked = if asked = key then some value else member? members asked := by
  induction members with
  | nil => rw [insertMember, member?_cons]
  | cons m members ih =>
    rw [insertMember]
    split
    · rw [member?_cons]
    split
    · next same =>
      rw [member?_cons, member?_cons, same]
      split <;> rfl
    · next other =>
      rw [member?_cons, ih, member?_cons]
      split
      · next found => rw [if_neg (by rw [found]; exact Ne.symm other)]
      · rfl

private theorem member?_foldl (written members : List (String × Json)) (key : String) :
    member? (written.foldl (fun members (key, value) => insertMember key value members) members) key =
      (written.reverse.lookup key).or (member? members key) := by
  induction written generalizing members with
  | nil => rfl
  | cons m written ih =>
    rw [List.foldl_cons, ih, member?_insertMember, List.reverse_cons, List.lookup_append, Option.or_assoc]
    congr 1
    have alone : List.lookup key [m] = if key = m.1 then some m.2 else none := member?_cons m [] key
    rw [alone]
    split <;> rfl

private theorem lookup_memberValues (members : List (String × Document)) (key : String) :
    (Document.memberValues members).reverse.lookup key = (Document.last? members key).map Document.value := by
  rw [Document.memberValues_eq, ← List.map_reverse, Document.last?]
  induction members.reverse with
  | nil => rfl
  | cons m members ih =>
    rw [List.map_cons, List.lookup_cons, List.lookup_cons, ih]
    split <;> rfl

theorem Document.last?_append (front back : List (String × Document)) (key : String) :
    last? (front ++ back) key = (last? back key).or (last? front key) := by
  rw [last?, List.reverse_append, List.lookup_append, last?, last?]

theorem Document.last?_cons (m : String × Document) (members : List (String × Document)) (key : String) :
    last? (m :: members) key = (last? members key).or (if key = m.1 then some m.2 else none) := by
  have alone : last? [m] key = if key = m.1 then some m.2 else none := by
    rw [last?, List.reverse_singleton, List.lookup_cons, List.lookup_nil]
    split
    · next same => rw [if_pos (beq_iff_eq.mp same)]
    · next other => rw [if_neg (ne_of_beq_false other)]
  rw [← List.singleton_append, last?_append, alone]

theorem Document.mem_of_last? {members : List (String × Document)} {key : String} {d : Document}
    (last : last? members key = some d) : (key, d) ∈ members := by
  rw [last?, List.lookup_eq_some_iff] at last
  obtain ⟨later, earlier, same, -⟩ := last
  rw [← List.mem_reverse, same]
  exact List.mem_append_right _ List.mem_cons_self

/-- An object holds, under every key, the last member that was written for it. -/
theorem Document.value_object (members : List (String × Document)) :
    ∃ settled, (Document.object members).value = .object settled ∧
      ∀ key, member? settled key = (last? members key).map value := by
  refine ⟨_, rfl, fun key => ?_⟩
  rw [member?_foldl, lookup_memberValues]
  exact Option.or_none

end Lookup

end DeviceBus.Json
