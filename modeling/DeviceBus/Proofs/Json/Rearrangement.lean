import DeviceBus.Proofs.Json.Members

/-! Documents with one value. Members of different keys may change places, and a member that a later one of its key overrides
may go, wherever in a document the object stands; its value shows neither. -/
namespace DeviceBus.Json

section Settling

variable {key other : String}

private theorem insertMember_of_lt {k : String} (less : key < k) (value v : Json) (members : List (String × Json)) :
    insertMember key value ((k, v) :: members) = (key, value) :: (k, v) :: members := by
  rw [insertMember, if_pos less]

theorem insertMember_self (key : String) (value v : Json) (members : List (String × Json)) :
    insertMember key value ((key, v) :: members) = (key, value) :: members := by
  rw [insertMember, if_neg (String.lt_irrefl key), if_pos rfl]

private theorem insertMember_of_gt {k : String} (greater : k < key) (value v : Json) (members : List (String × Json)) :
    insertMember key value ((k, v) :: members) = (k, v) :: insertMember key value members := by
  have apart : key ≠ k := by
    rintro rfl
    exact String.lt_irrefl _ greater
  rw [insertMember, if_neg (String.lt_asymm greater), if_neg apart]

theorem insertMember_insertMember (key : String) (v w : Json) (members : List (String × Json)) :
    insertMember key v (insertMember key w members) = insertMember key v members := by
  induction members with
  | nil => exact insertMember_self key v w []
  | cons m members ih =>
    obtain ⟨k, x⟩ := m
    rcases Std.lt_trichotomy key k with less | rfl | greater
    · rw [insertMember_of_lt less, insertMember_self, insertMember_of_lt less]
    · rw [insertMember_self, insertMember_self, insertMember_self]
    · rw [insertMember_of_gt greater, insertMember_of_gt greater, insertMember_of_gt greater, ih]

private theorem insertMember_comm_of_lt (less : key < other) (v w : Json) (members : List (String × Json)) :
    insertMember key v (insertMember other w members) = insertMember other w (insertMember key v members) := by
  induction members with
  | nil => exact (insertMember_of_lt less v w []).trans (insertMember_of_gt less w v []).symm
  | cons m members ih =>
    obtain ⟨k, x⟩ := m
    rcases Std.lt_trichotomy other k with before | rfl | after
    · have first := String.lt_trans less before
      rw [insertMember_of_lt before, insertMember_of_lt less, insertMember_of_lt first, insertMember_of_gt less,
        insertMember_of_lt before]
    · rw [insertMember_self, insertMember_of_lt less, insertMember_of_lt less, insertMember_of_gt less,
        insertMember_self]
    · rw [insertMember_of_gt after]
      rcases Std.lt_trichotomy key k with before | rfl | later
      · rw [insertMember_of_lt before, insertMember_of_lt before, insertMember_of_gt less, insertMember_of_gt after]
      · rw [insertMember_self, insertMember_self, insertMember_of_gt less]
      · rw [insertMember_of_gt later, insertMember_of_gt later, insertMember_of_gt after, ih]

theorem insertMember_comm (apart : key ≠ other) (v w : Json) (members : List (String × Json)) :
    insertMember key v (insertMember other w members) = insertMember other w (insertMember key v members) := by
  rcases Std.lt_trichotomy key other with less | same | greater
  · exact insertMember_comm_of_lt less v w members
  · exact absurd same apart
  · exact (insertMember_comm_of_lt greater w v members).symm

private theorem ofMembers_swap {m n : String × Json} (apart : m.1 ≠ n.1) (front back : List (String × Json)) :
    ofMembers (front ++ m :: n :: back) = ofMembers (front ++ n :: m :: back) := by
  simp only [ofMembers, List.foldl_append, List.foldl_cons]
  rw [insertMember_comm apart.symm]

private theorem foldl_insertMember_overridden {members back : List (String × Json)} (later : ∃ n ∈ back, n.1 = key)
    (v : Json) :
    back.foldl (fun members (key, value) => insertMember key value members) (insertMember key v members) =
      back.foldl (fun members (key, value) => insertMember key value members) members := by
  induction back generalizing members with
  | nil => simp at later
  | cons n back ih =>
    obtain ⟨k, x⟩ := n
    simp only [List.foldl_cons]
    by_cases here : k = key
    · rw [here, insertMember_insertMember]
    · -- Past a member of another key it is as if it had come later, nearer to the one that overrides it.
      obtain ⟨overriding, member, same⟩ := later
      rcases List.mem_cons.mp member with rfl | member
      · exact absurd same here
      · rw [insertMember_comm here, ih ⟨overriding, member, same⟩]

private theorem ofMembers_overridden {m : String × Json} {back : List (String × Json)} (later : ∃ n ∈ back, n.1 = m.1)
    (front : List (String × Json)) : ofMembers (front ++ m :: back) = ofMembers (front ++ back) := by
  rw [ofMembers, ofMembers, List.foldl_append, List.foldl_append, List.foldl_cons]
  exact congrArg Json.object (foldl_insertMember_overridden later m.2)

end Settling

/-- One change of a document that its value does not show. -/
inductive Rearranged : Document → Document → Prop
  | swap (front back : List (String × Document)) {m n : String × Document} (apart : m.1 ≠ n.1) :
      Rearranged (.object (front ++ m :: n :: back)) (.object (front ++ n :: m :: back))
  | overridden (front : List (String × Document)) {back : List (String × Document)} {m : String × Document}
      (later : ∃ n ∈ back, n.1 = m.1) : Rearranged (.object (front ++ m :: back)) (.object (front ++ back))
  | member (front back : List (String × Document)) (key : String) {d e : Document} (inside : Rearranged d e) :
      Rearranged (.object (front ++ (key, d) :: back)) (.object (front ++ (key, e) :: back))
  | element (front back : List Document) {d e : Document} (inside : Rearranged d e) :
      Rearranged (.array (front ++ d :: back)) (.array (front ++ e :: back))

theorem Rearranged.value_eq {d e : Document} (rearranged : Rearranged d e) : d.value = e.value := by
  induction rearranged with
  | swap front back apart =>
    simp only [Document.value, Document.memberValues_eq, List.map_append, List.map_cons]
    exact ofMembers_swap apart _ _
  | overridden front later =>
    obtain ⟨n, member, same⟩ := later
    simp only [Document.value, Document.memberValues_eq, List.map_append, List.map_cons]
    exact ofMembers_overridden ⟨_, List.mem_map_of_mem member, same⟩ _
  | member front back key _ ih =>
    simp only [Document.value, Document.memberValues_eq, List.map_append, List.map_cons, ih]
  | element front back _ ih =>
    simp only [Document.value, Document.values_eq, List.map_append, List.map_cons, ih]

end DeviceBus.Json
