import LogTint.Proofs.Telling

/-!
# How documents come to be idle

A document is idle because its latest edit found it over the ceiling, or because
the run of that edit has ended in one of three ways: it delivered highlights, it
read a text over its ceiling, or it reported that its computation broke off.
-/

namespace LogTint

/-- The highlights of a document that an event delivers. -/
def Event.deliveryOf? (id : DocumentId) (event : Event) : Option Publication :=
  (event.publication?.filter (·.1 = id)).map Prod.snd

theorem Entry.renewed_pending_state (entry : Entry) :
    (entry.renewed .pending).state ≠ .idle := by
  unfold renewed
  split
  case isTrue closed => simp [bumped, closed]
  case isFalse => simp

namespace Session

variable {debts after : Debts} {session final : Session} {kind : EffectKind}
  {run : Run} {id : DocumentId} {entry : Entry}

/-- The highlights of a document that were delivered last. -/
def lastDelivery? (session : Session) (id : DocumentId) : Option Publication :=
  (session.log.filterMap (·.2.deliveryOf? id)).getLast?

theorem lastDelivery?_append {new : List (Nat × Event)}
    (log : final.log = session.log ++ new)
    (plain : ∀ noted ∈ new, noted.2.deliveryOf? id = none) :
    final.lastDelivery? id = session.lastDelivery? id := by
  have nothing : new.filterMap (·.2.deliveryOf? id) = [] :=
    List.filterMap_eq_nil_iff.mpr plain
  unfold lastDelivery?
  rw [log, List.filterMap_append, nothing, List.append_nil]

theorem lastDelivery?_delivered {earlier : List (Nat × Event)} {time : Nat}
    {publication : Publication}
    (log : final.log = earlier ++ [(time, .highlights id publication)]) :
    final.lastDelivery? id = some publication := by
  unfold lastDelivery?
  rw [log, List.filterMap_append]
  simp [Event.deliveryOf?, Event.publication?]

/-- How a document comes to be idle with an effect, or stays so. -/
inductive Idles (session final : Session) (id : DocumentId) (entry : Entry) :
    Prop where
  | still {earlier : Entry} (found : session.registry.find? id = some earlier)
      (idle : earlier.state = .idle)
      (generation : earlier.generation = entry.generation)
      (delivered : final.lastDelivery? id = session.lastDelivery? id)
  | registered (new : id.number = session.nextId)
  | bypassed {document : Source}
      (measured : session.sources[entry.source]? = some document)
      (above : session.settings.maxChars < document.length)
  | overrun {run : Run} {document : Source} (member : run ∈ session.runs)
      (key : run.key = (id, entry.generation))
      (source : session.sources[run.source]? = some document)
      (above : document.text.exceeds run.config.maxChars = true)
  | published {run : Run} {text : Text} {highlights : Highlights} {lookup : Lookup}
      (member : run ∈ session.runs) (key : run.key = (id, entry.generation))
      (computed : run.phase = .computed text highlights lookup)
      (delivered :
        final.lastDelivery? id = some ⟨entry.generation, text, highlights⟩)
  | reported {run : Run} {reason : String} (member : run ∈ session.runs)
      (key : run.key = (id, entry.generation)) (failed : run.phase = .failed reason)

namespace Idles

/-- The change of an entry makes no document idle. -/
theorem of_edited {change : DocumentId → Entry → Entry}
    (edited : Registry.Edited change session.registry final.registry)
    (busy : ∀ earlier : Entry, (change id earlier).state = .idle →
      change id earlier = earlier)
    (found : final.registry.find? id = some entry) (idle : entry.state = .idle)
    (delivered : final.lastDelivery? id = session.lastDelivery? id) :
    Idles session final id entry := by
  obtain ⟨earlier, foundBefore, rfl⟩ := edited.exists_of_find? found
  have unchanged := busy earlier idle
  rw [unchanged] at idle ⊢
  exact .still foundBefore idle rfl delivered

theorem of_erased {erased : DocumentId}
    (find? : ∀ other, final.registry.find? other =
      if other = erased then none else session.registry.find? other)
    (found : final.registry.find? id = some entry) (idle : entry.state = .idle)
    (delivered : final.lastDelivery? id = session.lastDelivery? id) :
    Idles session final id entry := by
  rw [find?] at found
  split at found
  case isTrue => cases found
  case isFalse => exact .still found idle rfl delivered

/-- A run ends, and its document may become idle. -/
theorem of_finished
    (found : ((session.advanceState? run .computing .idle).getD
      session).registry.find? id = some entry) (idle : entry.state = .idle) :
    run.key = (id, entry.generation) ∨
      id ≠ run.id ∧ session.registry.find? id = some entry ∨
      session.advanceState? run .computing .idle = none ∧
        session.registry.find? id = some entry := by
  cases advance : session.advanceState? run .computing .idle with
  | none =>
      rw [advance] at found
      exact .inr (.inr ⟨rfl, found⟩)
  | some advanced =>
      rw [advance, Option.getD_some] at found
      obtain ⟨latest, registry, foundRun, current, _, edited, rfl⟩ :=
        advanceState?_spec advance
      obtain ⟨earlier, foundBefore, rfl⟩ := edited.exists_of_find? found
      by_cases here : id = run.id
      · subst here
        cases foundRun.symm.trans foundBefore
        left
        rw [if_pos rfl, Run.key, ← current]
        rfl
      · rw [if_neg here]
        exact .inr (.inl ⟨here, foundBefore⟩)

end Idles

end Session

/-- Only a delivery changes what was delivered last. -/
theorem Effect.lastDelivery? {kind : EffectKind} {debts after : Debts}
    {session final : Session} (effect : Effect kind (debts, session) (after, final))
    (coherent : Coherent debts session) (id : DocumentId)
    (ordinary : kind ≠ .publication) :
    final.lastDelivery? id = session.lastDelivery? id := by
  obtain ⟨new, log, plain⟩ := effect.log_ordinary coherent ordinary
  refine Session.lastDelivery?_append log fun noted member => ?_
  rw [Event.deliveryOf?, plain noted member]
  rfl

/-- How a document comes to be idle, whichever the effect. -/
theorem Effect.idles {kind : EffectKind} {debts after : Debts}
    {session final : Session} {id : DocumentId} {entry : Entry}
    (effect : Effect kind (debts, session) (after, final))
    (coherent : Coherent debts session)
    (found : final.registry.find? id = some entry) (idle : entry.state = .idle) :
    session.Idles final id entry := by
  have ordinary := effect.lastDelivery? coherent id
  cases effect with
  | aside | count | remark | rewrite | tell | clearCache | reconfigure | wake | wait
  | read | measure | forget | weaken =>
      exact .still found idle rfl (ordinary nofun)
  | register source held =>
      rcases Registry.find?_add_some found with earlier | ⟨_, new, _⟩
      · exact .still earlier idle rfl (ordinary nofun)
      · exact .registered (congrArg DocumentId.number new.symm)
  | unregister tracked =>
      obtain ⟨registry, runs, metrics, _, find?, _, released⟩ :=
        session.release_spec coherent.distinct tracked
      have told := ordinary nofun
      unfold Session.releaseAndTell at found told ⊢
      rw [released] at found told ⊢
      exact .of_erased find? found idle told
  | abandon tracked =>
      obtain ⟨registry, runs, metrics, _, find?, _, released⟩ :=
        session.release_spec coherent.distinct tracked
      have told := ordinary nofun
      rw [released] at found told ⊢
      exact .of_erased find? found idle told
  | @bypass _ _ edited entryBefore document foundBefore measured above =>
      obtain ⟨registry, runs, metrics, renewal, _, renewed⟩ :=
        session.renew_spec coherent.distinct edited .idle
      have told := ordinary nofun
      rw [renewed] at found told ⊢
      obtain ⟨earlier, foundEarlier, rfl⟩ := renewal.exists_of_find? found
      by_cases here : id = edited
      · subst here
        cases foundBefore.symm.trans foundEarlier
        refine .bypassed ?_ above
        rw [if_pos rfl, Entry.renewed_source]
        exact measured
      · rw [if_neg here] at idle ⊢
        exact .still foundEarlier idle rfl told
  | @arm _ _ edited entryBefore foundBefore =>
      obtain ⟨registry, runs, metrics, renewal, _, renewed⟩ :=
        session.renew_spec coherent.distinct edited .pending
      have told := ordinary nofun
      rw [renewed] at found told ⊢
      have armed := Registry.edited_modify
        (fun renewed => { renewed with armed := some (entryBefore.generation + 1) })
        (fun _ => rfl) registry edited
      refine .of_edited (renewal.trans armed) ?_ found idle told
      intro earlier isIdle
      by_cases here : id = edited
      · rw [if_pos here, if_pos here] at isIdle
        exact absurd isIdle earlier.renewed_pending_state
      · rw [if_neg here, if_neg here]
  | @call _ _ edited entryBefore awaited foundBefore =>
      obtain ⟨registry, runs, metrics, renewal, _, renewed⟩ :=
        session.renew_spec coherent.distinct edited .pending
      have told := ordinary nofun
      rw [renewed] at found told ⊢
      refine .of_edited renewal ?_ found idle told
      intro earlier isIdle
      by_cases here : id = edited
      · rw [if_pos here] at isIdle
        exact absurd isIdle earlier.renewed_pending_state
      · rw [if_neg here]
  | @start _ _ run advanced member ready advance alive =>
      obtain ⟨_, registry, _, _, _, edited, rfl⟩ := Session.advanceState?_spec advance
      refine .of_edited edited ?_ found idle (ordinary nofun)
      intro earlier isIdle
      by_cases here : id = run.id
      · rw [if_pos here] at isIdle
        cases isIdle
      · rw [if_neg here]
  | @overrun _ _ run texts document owed source above tracked =>
      obtain ⟨member, _⟩ := coherent.texts_head owed
      rw [Session.removeRun_eq] at found
      rcases Session.Idles.of_finished found idle with key | ⟨_, same⟩ | ⟨_, same⟩
      · exact .overrun member key source above
      · exact .still same idle rfl (ordinary nofun)
      · exact .still same idle rfl (ordinary nofun)
  | @report _ _ run reason member failed tracked =>
      rw [Session.removeRun_eq] at found
      rcases Session.Idles.of_finished found idle with key | ⟨_, same⟩ | ⟨_, same⟩
      · exact .reported member key failed
      · exact .still same idle rfl (ordinary nofun)
      · exact .still same idle rfl (ordinary nofun)
  | overrunUntracked | reportUntracked | stale =>
      rw [Session.removeRun_eq] at found
      exact .still found idle rfl (ordinary nofun)
  | @complete _ _ run text =>
      obtain ⟨_, _, _, _, completed⟩ :=
        session.complete_spec coherent.distinct run text
      rw [completed] at found
      exact .still found idle rfl (ordinary nofun)
  | @breakOff _ _ run text reason =>
      obtain ⟨_, _, broken⟩ := session.breakOff_spec coherent.distinct run reason
      rw [broken] at found
      exact .still found idle rfl (ordinary nofun)
  | @drop _ _ run =>
      obtain ⟨registry, metrics, log, _, find?, dropped⟩ :=
        Session.closeDropped_spec session run
      have told := ordinary nofun
      rw [Session.removeRun_eq, dropped] at found told ⊢
      exact .of_erased find? found idle told
  | @publish _ _ run text highlights lookup advanced member computed advance alive =>
      have settled : advanced =
          (session.advanceState? run .computing .idle).getD session := by
        rw [advance, Option.getD_some]
      obtain ⟨latest, registry, foundRun, current, _, edited, rfl⟩ :=
        Session.advanceState?_spec advance
      rw [Session.removeRun_eq] at found ⊢
      have foundAdvanced : ((session.advanceState? run .computing .idle).getD
          session).registry.find? id = some entry := settled ▸ found
      rcases Session.Idles.of_finished foundAdvanced idle with
        key | ⟨different, same⟩ | ⟨impossible, _⟩
      · obtain ⟨here, generation⟩ := Prod.mk.inj key
        subst here
        refine .published member key computed ?_
        rw [← generation]
        exact Session.lastDelivery?_delivered rfl
      · refine .still same idle rfl (Session.lastDelivery?_append rfl ?_)
        intro noted last
        rw [List.mem_singleton.mp last]
        simp [Event.deliveryOf?, Event.publication?, Ne.symm different]
      · cases impossible.symm.trans advance
  | close =>
      obtain ⟨registry, runs, edited, _, closed⟩ :=
        session.close_spec coherent.distinct
      have told := ordinary nofun
      rw [closed] at found told ⊢
      exact .of_edited edited (fun _ isIdle => by cases isIdle) found idle told

end LogTint
