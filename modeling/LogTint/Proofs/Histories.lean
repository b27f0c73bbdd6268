import LogTint.Proofs.Moves

/-!
# Histories

A history is a sequence of moves.  What every effect keeps holds wherever a
history leads.
-/

namespace LogTint

theorem Coherent.ofEffects {debts final : Debts} {session after : Session}
    (coherent : Coherent debts session)
    (effects : Effects (debts, session) (final, after)) : Coherent final after :=
  effects.induct Coherent (fun effect coherent => coherent.ofEffect effect) coherent

namespace Session

variable {debts : Debts} {session middle after : Session} {move : Move}
  {moves earlier later : List Move}

theorem moves?_cons_iff :
    session.moves? (move :: moves) = some after ↔
      ∃ middle, session.move? move = some middle ∧
        middle.moves? moves = some after := by
  simp [moves?, Option.bind_eq_some_iff]

theorem moves?_singleton (moved : session.move? move = some after) :
    session.moves? [move] = some after :=
  moves?_cons_iff.mpr ⟨after, moved, rfl⟩

theorem moves?_append_iff :
    session.moves? (earlier ++ later) = some after ↔
      ∃ middle, session.moves? earlier = some middle ∧
        middle.moves? later = some after := by
  simp [moves?, List.foldlM_append, Option.bind_eq_some_iff]

theorem moves?_of_prefix (before : earlier <+: moves)
    (reached : session.moves? moves = some after) :
    ∃ later middle, session.moves? earlier = some middle ∧
      middle.moves? later = some after := by
  obtain ⟨later, rfl⟩ := before
  obtain ⟨middle, here, rest⟩ := moves?_append_iff.mp reached
  exact ⟨later, middle, here, rest⟩

/-- What every move keeps is kept by every history. -/
theorem moves?_keeps (Holds : Session → Prop)
    (step : ∀ {session move after}, session.move? move = some after →
      Holds session → Holds after)
    (reached : session.moves? moves = some after) (holds : Holds session) :
    Holds after := by
  induction moves generalizing session with
  | nil =>
      cases reached
      exact holds
  | cons move moves induction =>
      obtain ⟨middle, moved, rest⟩ := moves?_cons_iff.mp reached
      exact induction rest (step moved holds)

theorem effects_of_move (coherent : Coherent session.debts session)
    (moved : session.move? move = some after) :
    Effects (session.debts, session) (after.debts, after) := by
  obtain ⟨_, marked, _⟩ := (move?_moved coherent moved).marked
  exact marked.effects

/-- A scheduler that is gone stays gone, and so does one that the host has given up. -/
theorem stays_of_effect {kind : EffectKind} {final : Debts}
    (effect : Effect kind (debts, session) (final, after))
    (coherent : Coherent debts session) :
    (session.dropped = true → after.dropped = true) ∧
      (session.held = false → after.held = false) := by
  have same : (session.dropped = true → session.dropped = true) ∧
      (session.held = false → session.held = false) :=
    ⟨fun gone => gone, fun free => free⟩
  cases effect with
  | aside _ _ holding =>
      refine ⟨fun gone => gone, fun free => Bool.eq_false_iff.mpr fun held => ?_⟩
      cases free.symm.trans (holding held)
  | count | remark | rewrite | register | tell | reconfigure | clearCache | measure
  | forget | weaken | wake | wait | read => exact same
  | unregister tracked | abandon tracked =>
      obtain ⟨_, _, _, _, _, _, released⟩ := session.release_spec coherent.distinct tracked
      simp [releaseAndTell, released, note, sendNotice]
  | @bypass _ _ id =>
      obtain ⟨_, _, _, _, _, renewed⟩ := session.renew_spec coherent.distinct id .idle
      rw [renewed]
      exact same
  | @arm _ _ id | @call _ _ id =>
      obtain ⟨_, _, _, _, _, renewed⟩ := session.renew_spec coherent.distinct id .pending
      rw [renewed]
      exact same
  | start member ready advance =>
      obtain ⟨_, _, _, _, _, _, rfl⟩ := advanceState?_spec advance
      exact same
  | @complete _ _ run text =>
      obtain ⟨_, _, _, _, completed⟩ := session.complete_spec coherent.distinct run text
      rw [completed]
      exact same
  | @breakOff _ _ run text reason =>
      obtain ⟨_, _, broken⟩ := session.breakOff_spec coherent.distinct run reason
      rw [broken]
      exact same
  | stale | overrunUntracked | reportUntracked =>
      rw [removeRun_eq]
      exact same
  | @drop _ _ run =>
      obtain ⟨_, _, _, _, _, closed⟩ := closeDropped_spec session run
      rw [removeRun_eq, closed]
      exact same
  | publish member computed advance =>
      obtain ⟨_, _, _, _, _, _, rfl⟩ := advanceState?_spec advance
      rw [removeRun_eq]
      exact same
  | @overrun _ _ run | @report _ _ run =>
      obtain ⟨_, settled⟩ := session.advanceState?_getD_eq run .computing .idle
      rw [removeRun_eq, settled]
      exact same
  | close =>
      obtain ⟨_, _, _, _, closed⟩ := session.close_spec coherent.distinct
      rw [closed]
      exact ⟨fun _ => rfl, fun free => free⟩

/-- Every history keeps a session coherent. -/
theorem coherent_of_moves (reached : session.moves? moves = some after)
    (coherent : Coherent session.debts session) : Coherent after.debts after :=
  moves?_keeps (fun session => Coherent session.debts session)
    (fun moved coherent => coherent.ofEffects (effects_of_move coherent moved))
    reached coherent

/-- What every effect on a coherent session keeps is kept by every history. -/
theorem invariant_of_moves (Holds : Debts → Session → Prop)
    (keeps : ∀ {kind debts session after final},
      Effect kind (debts, session) (after, final) → Coherent debts session →
        Holds debts session → Holds after final)
    (reached : session.moves? moves = some after)
    (coherent : Coherent session.debts session)
    (holds : Holds session.debts session) : Holds after.debts after := by
  have both := moves?_keeps
    (fun session => Coherent session.debts session ∧ Holds session.debts session) ?_
    reached ⟨coherent, holds⟩
  · exact both.2
  · intro session move after moved both
    exact (effects_of_move both.1 moved).induct
      (fun debts session => Coherent debts session ∧ Holds debts session)
      (fun effect both => ⟨both.1.ofEffect effect, keeps effect both.1 both.2⟩) both

theorem present_of_moves (reached : session.moves? moves = some after)
    (coherent : Coherent session.debts session) (present : after.dropped = false) :
    session.dropped = false := by
  cases dropped : session.dropped with
  | false => rfl
  | true =>
      have gone := invariant_of_moves (fun _ later => later.dropped = true)
        (fun effect coherent => (stays_of_effect effect coherent).1) reached coherent dropped
      cases gone.symm.trans present

theorem held_of_moves (reached : session.moves? moves = some after)
    (coherent : Coherent session.debts session) (held : after.held = true) :
    session.held = true := by
  cases given : session.held with
  | true => rfl
  | false =>
      have free := invariant_of_moves (fun _ later => later.held = false)
        (fun effect coherent => (stays_of_effect effect coherent).2) reached coherent given
      cases free.symm.trans held

theorem present_of_move (coherent : Coherent session.debts session)
    (moved : session.move? move = some after) (present : after.dropped = false) :
    session.dropped = false :=
  present_of_moves (moves?_singleton moved) coherent present

/-- A host registers a document and tells of one edit. -/
def firstEdit (text : Text) : List Move :=
  [.create (.quiet text true .tracked), .act (.register 0)] ++
    List.replicate 3 .proceed ++ [.act (.edit ⟨1⟩)] ++ List.replicate 4 .proceed

/-- A host registers a document and calls for its highlights, which are
computed. -/
def firstCall (text : Text) : List Move :=
  [.create (.quiet text true .tracked), .act (.register 0)] ++
    List.replicate 3 .proceed ++ [.highlightNow ⟨1⟩, .proceed, .complete ⟨1⟩ 1]

end Session

end LogTint
