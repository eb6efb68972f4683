import DeviceBus.Proofs.Session.History

/-! Sessions on longer scripts. Either nothing that comes after a script matters any more, because the session has
ended or waits for ever, or the session takes it up where the script has left it. -/
namespace DeviceBus.Session

open Broker (Event)

theorem send_unread (room : Nat) (deliveries : List Delivery) :
    Channel.send (.unread room) deliveries =
      if deliveries.length ≤ room then (deliveries, .all (.unread (room - deliveries.length)))
      else (deliveries.take room, .stuck) := by
  induction deliveries generalizing room with
  | nil => exact send_nil _
  | cons d rest ih =>
    cases room with
    | zero => rfl
    | succ room =>
      rw [Channel.send, ih room]
      by_cases fits : rest.length ≤ room
      · simp [fits]
      · simp [fits]

theorem send_refused (channel : Channel) (deliveries : List Delivery) {taken : List Delivery}
    (outcome : channel.send deliveries = (taken, .refused)) : channel = .closed ∧ deliveries ≠ [] := by
  cases channel with
  | closed =>
    refine ⟨rfl, ?_⟩
    rintro rfl
    cases outcome
  | drained =>
    rw [send_drained] at outcome
    cases outcome
  | unread room =>
    rw [send_unread] at outcome
    split at outcome <;> cases outcome

private theorem send_closed (channel : Channel) (deliveries : List Delivery) {taken : List Delivery}
    (outcome : channel.send deliveries = (taken, .all .closed)) : channel = .closed := by
  cases channel with
  | closed => rfl
  | drained =>
    rw [send_drained] at outcome
    cases outcome
  | unread room =>
    rw [send_unread] at outcome
    split at outcome <;> cases outcome

variable (setup : Setup)

private theorem follow_append (phase : Phase) (channel : Channel) (before : List Step) :
    (∀ more, follow setup phase channel (before ++ more) = follow setup phase channel before) ∨
      (follow setup phase channel before).exit = none ∧
        ∃ left, (left = .closed → channel = .closed ∨ .dropReceiver ∈ before) ∧
          ∀ more, follow setup phase channel (before ++ more) =
            .after (follow setup phase channel before).entries (follow setup phase channel before).deliveries
              (follow setup (follow setup phase channel before).phase left more) := by
  induction before generalizing phase channel with
  | nil => exact .inr ⟨rfl, channel, .inl, fun more => rfl⟩
  | cons step before ih =>
    cases step with
    | wait ms =>
      rcases ih phase channel with same | ⟨lasts, left, gone, same⟩
      · exact .inl same
      · exact .inr ⟨lasts, left, fun closed => (gone closed).imp_right (List.mem_cons_of_mem _), same⟩
    | dropReceiver =>
      rcases ih phase .closed with same | ⟨lasts, left, gone, same⟩
      · exact .inl same
      · exact .inr ⟨lasts, left, fun _ => .inr List.mem_cons_self, same⟩
    | cancel => exact .inl fun more => rfl
    | event event =>
      simp only [List.cons_append, follow]
      generalize turn setup phase event = turn
      cases delivered : channel.send turn.deliveries with
      | mk taken sent =>
        cases sent with
        | stuck => exact .inl fun more => rfl
        | refused => exact .inl fun more => rfl
        | all rest =>
          cases turn.next with
          | finish last exit => exact .inl fun more => rfl
          | stay next =>
            -- what is left of the channel after the turn is what the rest of the script starts with
            rcases ih next rest with same | ⟨lasts, left, gone, same⟩
            · exact .inl fun more => congrArg _ (same more)
            · refine .inr ⟨lasts, left, fun closed => ?_, fun more => ?_⟩
              · rcases gone closed with rfl | member
                · exact .inl (send_closed channel _ delivered)
                · exact .inr (List.mem_cons_of_mem _ member)
              · dsimp only
                rw [same more, Report.after_after]
                rfl

theorem run_append (channel : Channel) (cancelled : Bool) (before : List Step) :
    (∀ more, run setup channel cancelled (before ++ more) = run setup channel cancelled before) ∨
      (run setup channel cancelled before).exit = none ∧
        ∃ left, (left = .closed → channel = .closed ∨ .dropReceiver ∈ before) ∧
          ∀ more, run setup channel cancelled (before ++ more) =
            .after (run setup channel cancelled before).entries (run setup channel cancelled before).deliveries
              (follow setup (run setup channel cancelled before).phase left more) := by
  simp only [run]
  cases setup.failures.connect with
  | some info => exact .inl fun more => rfl
  | none =>
    cases cancelled with
    | true => exact .inl fun more => rfl
    | false =>
      rcases follow_append setup .connecting channel before with same | ⟨lasts, left, gone, same⟩
      · exact .inl fun more => congrArg _ (same more)
      · refine .inr ⟨lasts, left, gone, fun more => ?_⟩
        simp only [Bool.false_eq_true, if_false]
        rw [same more, Report.after_after]
        rfl

/-- What is known of a session after a script is a first part of what is known after a longer one. -/
theorem run_grows (channel : Channel) (cancelled : Bool) (before more : List Step) :
    (run setup channel cancelled before).entries <+: (run setup channel cancelled (before ++ more)).entries ∧
      (run setup channel cancelled before).deliveries <+:
        (run setup channel cancelled (before ++ more)).deliveries := by
  rcases run_append setup channel cancelled before with same | ⟨-, left, -, goes⟩
  · rw [same]
    exact ⟨List.prefix_rfl, List.prefix_rfl⟩
  · rw [goes]
    exact ⟨List.prefix_append _ _, List.prefix_append _ _⟩

theorem run_ended (channel : Channel) (cancelled : Bool) {before : List Step}
    (ended : (run setup channel cancelled before).exit ≠ none) (more : List Step) :
    run setup channel cancelled (before ++ more) = run setup channel cancelled before := by
  rcases run_append setup channel cancelled before with same | ⟨lasts, -⟩
  · exact same more
  · exact absurd lasts ended

end DeviceBus.Session
