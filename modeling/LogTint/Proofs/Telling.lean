import LogTint.Proofs.Descent
import LogTint.Proofs.Histories

/-!
# What the host is told

Every effect tells the host of one thing at most.  News of a document is told
while the document is tracked, or settles a notice, or comes from a run that
does not ask whether its document is still there.
-/

namespace LogTint

namespace Event

/-- The document that an event brings news of. -/
def news? : Event → Option DocumentId
  | .highlights id _ | .bypass id _ | .error id _ | .closed id => some id
  | .acted _ _ | .returned _ _ => none

/-- The document whose highlights or whose end an event brings. -/
def outcome? : Event → Option DocumentId
  | .highlights id _ | .closed id => some id
  | .bypass _ _ | .error _ _ | .acted _ _ | .returned _ _ => none

/-- The highlights that an event delivers. -/
def publication? : Event → Option (DocumentId × Publication)
  | .highlights id publication => some (id, publication)
  | .closed _ | .bypass _ _ | .error _ _ | .acted _ _ | .returned _ _ => none

theorem news?_of_outcome? {event : Event} {id : DocumentId}
    (outcome : event.outcome? = some id) : event.news? = some id := by
  cases event <;> first | exact outcome | cases outcome

theorem publication?_of_outcome? {event : Event} (minor : event.outcome? = none) :
    event.publication? = none := by
  cases event <;> first | rfl | cases minor

theorem publication?_of_news? {event : Event} (silent : event.news? = none) :
    event.publication? = none := by
  cases event <;> first | rfl | cases silent

theorem news?_of_isRemark {event : Event} (remark : event.isRemark) :
    event.news? = none := by
  cases event <;> first | rfl | cases remark

end Event

/-- What an effect tells the host. -/
inductive Telling (kind : EffectKind) (session final : Session) : Prop where
  | nothing (log : final.log = session.log)
      (notices : final.notices = session.notices)
  | remark {event : Event} (remark : event.news? = none)
      (log : final.log = session.log ++ [(session.clock, event)])
      (notices : final.notices = session.notices)
  | news {event : Event} {id : DocumentId} (told : event.news? = some id)
      (ordinary : kind = .publication ∨ event.publication? = none)
      (tracked : session.registry.contains id = true)
      (closing : event = .closed id → final.registry.find? id = none)
      (log : final.log = session.log ++ [(session.clock, event)])
      (notices : final.notices = session.notices)
  /-- The document is not tracked any more. -/
  | unheeded {event : Event} {id : DocumentId} (exit : kind = .unheeded id)
      (told : event.news? = some id) (minor : event.outcome? = none)
      (log : final.log = session.log ++ [(session.clock, event)])
      (notices : final.notices = session.notices)
  /-- The host is going to be told. -/
  | owed {notice : Notice} (tracked : session.registry.contains notice.id = true)
      (closing : final.registry.find? notice.id = none)
      (log : final.log = session.log)
      (notices : final.notices = session.notices ++ [notice])
  | settled {notice : Notice} (member : notice ∈ session.notices)
      (log : final.log = session.log ++ [(session.clock, .closed notice.id)])
      (notices : final.notices = session.notices.erase notice)

namespace Telling

variable {debts : Debts} {session : Session} {run : Run} {kind : EffectKind}

theorem of_drop (session : Session) (run : Run) :
    Telling kind session ((session.closeDropped run).removeRun run) := by
  rw [Session.removeRun_eq]
  by_cases tracked : session.registry.contains run.id = true
  · rw [Session.closeDropped_tracked tracked]
    have told : Event.news? (.closed run.id) = some run.id := rfl
    refine .news told (.inr rfl) tracked (fun _ => ?_) rfl rfl
    exact (Registry.find?_erase _ _ _).trans (if_pos rfl)
  · rw [Session.closeDropped_untracked tracked]
    exact .nothing rfl rfl

/-- A run ends and tells the host why. -/
theorem of_finished {occurrence : Occurrence} {event : Event}
    (told : event.news? = some run.id) (minor : event.outcome? = none)
    (tracked : session.registry.contains run.id = true) :
    Telling kind session
      (((((session.advanceState? run .computing .idle).getD session).count
        occurrence).note event).removeRun run) := by
  have notClosed : event ≠ .closed run.id := by
    rintro rfl
    cases minor
  have ordinary := Event.publication?_of_outcome? minor
  rw [Session.removeRun_eq]
  cases advance : session.advanceState? run .computing .idle with
  | none =>
      exact .news told (.inr ordinary) tracked
        (fun closed => absurd closed notClosed) rfl rfl
  | some advanced =>
      obtain ⟨_, registry, _, _, _, _, rfl⟩ := Session.advanceState?_spec advance
      exact .news told (.inr ordinary) tracked
        (fun closed => absurd closed notClosed) rfl rfl

end Telling

/-- What the host is told by each effect. -/
theorem Effect.telling {kind : EffectKind} {debts after : Debts}
    {session final : Session} (effect : Effect kind (debts, session) (after, final))
    (coherent : Coherent debts session) : Telling kind session final := by
  cases effect with
  | aside | count | rewrite | register | reconfigure | clearCache | measure | forget
  | weaken | wake | wait | read =>
      exact .nothing rfl rfl
  | remark event remark => exact .remark (Event.news?_of_isRemark remark) rfl rfl
  | @unregister _ _ id tracked =>
      have closing := Session.release_find? session id
      obtain ⟨registry, runs, metrics, _, find?, _, released⟩ :=
        session.release_spec coherent.distinct tracked
      unfold Session.releaseAndTell
      rw [released] at closing ⊢
      have told : Event.news? (.closed id) = some id := rfl
      exact .news told (.inr rfl) tracked (fun _ => closing) rfl rfl
  | @abandon _ _ id tracked =>
      have closing := Session.release_find? session id
      obtain ⟨registry, runs, metrics, _, find?, _, released⟩ :=
        session.release_spec coherent.distinct tracked
      rw [released] at closing ⊢
      refine .owed ?_ ?_ rfl rfl
      · exact tracked
      · exact closing
  | tell member => exact .settled member rfl rfl
  | @bypass _ _ id =>
      obtain ⟨_, _, _, _, _, renewed⟩ := session.renew_spec coherent.distinct id .idle
      rw [renewed]
      exact .nothing rfl rfl
  | @arm _ _ id =>
      obtain ⟨_, _, _, _, _, renewed⟩ := session.renew_spec coherent.distinct id .pending
      rw [renewed]
      exact .nothing rfl rfl
  | @call _ _ id =>
      obtain ⟨_, _, _, _, _, renewed⟩ := session.renew_spec coherent.distinct id .pending
      rw [renewed]
      exact .nothing rfl rfl
  | start member ready advance =>
      obtain ⟨_, _, _, _, _, _, rfl⟩ := Session.advanceState?_spec advance
      exact .nothing rfl rfl
  | overrun owed source above tracked => exact .of_finished rfl rfl tracked
  | report member failed tracked => exact .of_finished rfl rfl tracked
  | @overrunUntracked _ _ run =>
      rw [Session.removeRun_eq]
      exact .unheeded rfl rfl rfl rfl rfl
  | reportUntracked =>
      rw [Session.removeRun_eq]
      exact .unheeded rfl rfl rfl rfl rfl
  | @complete _ _ run text =>
      obtain ⟨_, _, _, _, completed⟩ :=
        session.complete_spec coherent.distinct run text
      rw [completed]
      exact .nothing rfl rfl
  | @breakOff _ _ run text reason =>
      obtain ⟨_, _, broken⟩ := session.breakOff_spec coherent.distinct run reason
      rw [broken]
      exact .nothing rfl rfl
  | stale =>
      rw [Session.removeRun_eq]
      exact .nothing rfl rfl
  | @drop _ _ run => exact .of_drop session run
  | @publish _ _ run text highlights lookup advanced member computed advance =>
      obtain ⟨entry, _, found, _, _, _, rfl⟩ := Session.advanceState?_spec advance
      rw [Session.removeRun_eq]
      have told : Event.news? (.highlights run.id ⟨run.generation, text, highlights⟩) =
          some run.id := rfl
      have tracked := Registry.contains_iff.mpr ⟨entry, found⟩
      exact .news told (.inl rfl) tracked (fun closed => by cases closed) rfl rfl
  | close =>
      obtain ⟨_, _, _, _, closed⟩ := session.close_spec coherent.distinct
      rw [closed]
      exact .nothing rfl rfl

/-- Highlights are delivered by publications only. -/
theorem Effect.log_ordinary {kind : EffectKind} {debts after : Debts}
    {session final : Session} (effect : Effect kind (debts, session) (after, final))
    (coherent : Coherent debts session) (ordinary : kind ≠ .publication) :
    ∃ new, final.log = session.log ++ new ∧
      ∀ noted ∈ new, noted.2.publication? = none := by
  cases effect.telling coherent with
  | nothing log | owed _ _ log => exact ⟨[], by rw [log, List.append_nil], by simp⟩
  | remark silent log =>
      exact ⟨_, log, by simpa using Event.publication?_of_news? silent⟩
  | news _ delivers _ _ log =>
      exact ⟨_, log, by simpa using delivers.resolve_left ordinary⟩
  | unheeded _ _ minor log =>
      exact ⟨_, log, by simpa using Event.publication?_of_outcome? minor⟩
  | settled _ log => exact ⟨_, log, by simp [Event.publication?]⟩

theorem Inner.log_ordinary {debts after : Debts} {session final : Session}
    (effects : Inner (debts, session) (after, final))
    (coherent : Coherent debts session) :
    ∃ new, final.log = session.log ++ new ∧
      ∀ noted ∈ new, noted.2.publication? = none :=
  (effects.induct
    (fun debts later => Coherent debts later ∧ ∃ new, later.log = session.log ++ new ∧
      ∀ noted ∈ new, noted.2.publication? = none)
    (fun effect ⟨coherent, new, log, plain⟩ => by
      obtain ⟨more, logLater, plainLater⟩ := effect.log_ordinary coherent nofun
      refine ⟨coherent.ofEffect effect, new ++ more, ?_, ?_⟩
      · rw [logLater, log, List.append_assoc]
      · intro noted member
        exact (List.mem_append.mp member).elim (plain noted) (plainLater noted))
    ⟨coherent, [], by rw [List.append_nil], by simp⟩).2

end LogTint
