import P2PHub.SubscriptionHubRuns

/-!
# Exposure and guards of the subscription hub

Only the two calls that configure a hub change which topics it exposes and which
namespaces it guards.
-/

namespace P2PHub

/-- The exposed topics and the guards are the same. -/
structure SameExposure (before after : SubscriptionHub) : Prop where
  exposed : after.exposed = before.exposed
  guards : after.guards = before.guards

theorem SameExposure.refl (hub : SubscriptionHub) : SameExposure hub hub :=
  ⟨rfl, rfl⟩

theorem SameExposure.isExposed {before after : SubscriptionHub}
    (same : SameExposure before after) (topic : String) :
    after.isExposed topic = before.isExposed topic := by
  unfold SubscriptionHub.isExposed
  rw [same.exposed]

variable {settings : HubSettings} {hub after : SubscriptionHub} {action : HubAction}
  {call next : HubCall} {answer : HubAnswer} {events : List HubEvent}

theorem passGate_sameExposure {peerId topic : String} {byteSize moment : Nat}
    {registerNow checkNow : Int} : SameExposure hub
      (hub.passGate settings peerId topic byteSize moment registerNow checkNow).1 := by
  have applied : SameExposure hub
      (hub.applyPeerRateLimit settings peerId topic moment registerNow).1 := by
    unfold SubscriptionHub.applyPeerRateLimit
    split
    · exact .refl hub
    · split
      · exact .refl hub
      · dsimp only
        split <;> exact ⟨rfl, rfl⟩
  unfold SubscriptionHub.passGate
  split
  · next charged same =>
      rw [same] at applied
      exact applied
  · next charged same =>
      rw [same] at applied
      exact ⟨applied.exposed, applied.guards⟩

theorem resumeHub_sameExposure
    (resumed : (hubProgram settings).resume hub call answer = some (after, next, events)) :
    SameExposure hub after := by
  rcases resumeHub_some resumed with
    ⟨emission, phase, rfl, resumes⟩ | ⟨peerId, body, phase, rfl, resumes⟩
  · rcases resumeEmit_cases resumes with
      ⟨_, _, _, _, _, _, asked⟩ | ⟨_, subscription, moment, registerNow, checkNow, _, _,
        dispatched⟩ |
      ⟨cursor, delivered, _, sought⟩ | thrown
    · cases asked
      exact .refl _
    · have passed : SameExposure hub (hub.passGate settings subscription.peerId emission.topic
          emission.byteSize moment registerNow checkNow).1 := passGate_sameExposure
      rcases dispatchEvent_cases settings hub emission _ subscription moment registerNow
          checkNow with ⟨-, refused⟩ | ⟨-, sent⟩
      · have reached := congrArg HubStep.hub (dispatched.trans refused)
        rw [seekSubscriber_hub] at reached
        obtain rfl : after = _ := reached
        exact passed
      · obtain rfl : after = _ := congrArg HubStep.hub (dispatched.trans sent)
        exact ⟨passed.exposed, passed.guards⟩
    · have reached := congrArg HubStep.hub sought
      rw [seekSubscriber_hub] at reached
      obtain rfl : after = hub := reached
      exact .refl _
    · cases thrown
      exact .refl _
  · cases resumeSubscribe_turn resumes with
    | waiting | rejected => exact .refl _
    | granted => exact ⟨rfl, rfl⟩

/-- An entry point changes the exposed topics, registers a guard, or does
neither. -/
theorem launchHub_exposure {left : Option (HubCall × List HubEvent)}
    (launched : (hubProgram settings).launch hub action = (after, left)) :
    (∃ topics, action = .setExposedEvents topics ∧ after = hub.setExposedEvents topics) ∨
    (∃ guarded, action = .registerSubscriptionGuard guarded ∧
      hub.registerSubscriptionGuard guarded = .ok after) ∨ SameExposure hub after := by
  have same : after = ((hubProgram settings).launch hub action).1 := by rw [launched]
  cases action with
  | setExposedEvents topics => exact .inl ⟨topics, rfl, same⟩
  | registerSubscriptionGuard guarded =>
    simp only [hubProgram] at same
    split at same
    · next registered registers =>
        obtain rfl : after = registered := same
        exact .inr (.inl ⟨guarded, rfl, registers⟩)
    · obtain rfl : after = hub := same
      exact .inr (.inr (.refl _))
  | handleSubReq peerId body now =>
    obtain rfl : after = (handleSubReq settings hub peerId body now).hub := same
    right; right
    rcases handleSubReq_cases settings hub peerId body now with
      ⟨reason, rejected⟩ | ⟨-, -, removed⟩ | ⟨-, -, -, entered⟩
    · rw [rejected]
      exact ⟨rfl, rfl⟩
    · rw [removed]
      exact ⟨rfl, rfl⟩
    · rw [entered]
      exact ⟨rfl, rfl⟩
  | emitLocal topic payload sweepNow now =>
    obtain rfl : after = (emitLocal hub topic payload sweepNow now).hub := same
    right; right
    rw [emitLocal_hub]
    split <;> exact ⟨rfl, rfl⟩
  | listSubscriptions now | sweep now =>
    obtain rfl : after = hub.sweep now := same
    exact .inr (.inr ⟨rfl, rfl⟩)
  | close =>
    obtain rfl : after = hub.close := same
    exact .inr (.inr ⟨rfl, rfl⟩)

end P2PHub
