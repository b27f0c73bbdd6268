import LogTint.Proofs.Deeds

/-!
# Histories told by their deeds

A history shows of a document what a session shows in which the deeds of the history are
done one after the other and nothing else is.  So histories with the same deeds show the
same of the document, whatever else happens in them.
-/

namespace LogTint

namespace Session

variable {id : DocumentId} {hidden : SourceId → Bool} {session middle alone after : Session}
  {move : Move} {moves earlier later : List Move}

/-- What is done for a document in a history. -/
def deeds (session : Session) (id : DocumentId) (hidden : SourceId → Bool)
    (moves : List Move) : List Deed :=
  (session.dealings id hidden moves).map Dealing.deed

/-- Deeds that make no document act, let the host keep the scheduler, and never read a
hidden source. -/
structure Fair (id : DocumentId) (hidden : SourceId → Bool) (session : Session)
    (deeds : List Deed) : Prop where
  keepsCalm : ∀ deed ∈ deeds, deed.keepsCalm = true
  shown : ∀ earlier, earlier <+: deeds → ∀ entry,
    (earlier.foldl (does id) session).registry.find? id = some entry →
      hidden entry.source = false

/-! ## One move after the other -/

theorem dealings_cons (moved : session.move? move = some middle) :
    session.dealings id hidden (move :: moves) =
      ((session.deed? id hidden move).map fun deed =>
        (⟨deed, session.responds id deed⟩ : Dealing)).toList ++
          middle.dealings id hidden moves := by
  rw [dealings, moved]

theorem deeds_cons (moved : session.move? move = some middle) :
    session.deeds id hidden (move :: moves) =
      (session.deed? id hidden move).toList ++ middle.deeds id hidden moves := by
  rw [deeds, dealings_cons moved, List.map_append]
  cases session.deed? id hidden move <;> rfl

theorem deeds_append (reached : session.moves? earlier = some middle) :
    session.deeds id hidden (earlier ++ later) =
      session.deeds id hidden earlier ++ middle.deeds id hidden later := by
  induction earlier generalizing session with
  | nil =>
      cases reached
      rfl
  | cons move earlier induction =>
      obtain ⟨between, moved, rest⟩ := moves?_cons_iff.mp reached
      rw [List.cons_append, deeds_cons moved, deeds_cons moved, induction rest,
        List.append_assoc]

namespace Fair

theorem head {deeds : List Deed} (fair : Fair id hidden session deeds) (entry : Entry)
    (found : session.registry.find? id = some entry) : hidden entry.source = false :=
  fair.shown [] List.nil_prefix entry found

theorem tail {deed : Deed} {deeds : List Deed}
    (fair : Fair id hidden session (deed :: deeds)) :
    Fair id hidden (session.does id deed) deeds where
  keepsCalm other member := fair.keepsCalm other (List.mem_cons_of_mem deed member)
  shown earlier before := fair.shown (deed :: earlier) ((List.prefix_cons_inj deed).mpr before)

theorem cons {deed : Deed} {deeds : List Deed} (keepsCalm : deed.keepsCalm = true)
    (shown : ∀ entry, session.registry.find? id = some entry → hidden entry.source = false)
    (fair : Fair id hidden (session.does id deed) deeds) :
    Fair id hidden session (deed :: deeds) where
  keepsCalm := List.forall_mem_cons.mpr ⟨keepsCalm, fair.keepsCalm⟩
  shown earlier before := by
    rcases List.prefix_cons_iff.mp before with rfl | ⟨rest, rfl, shorter⟩
    · exact shown
    · exact fair.shown rest shorter

end Fair

/-- What a history shows is what its deeds show where nothing else is done, and the host is
answered alike. -/
theorem Mirrors.moves? (mirrors : Mirrors id hidden session alone)
    (coherent : Coherent session.debts session)
    (fair : Fair id hidden alone (session.deeds id hidden moves))
    (reached : session.moves? moves = some after) :
    Mirrors id hidden after ((session.deeds id hidden moves).foldl (does id) alone) ∧
      session.dealings id hidden moves =
        alone.replay id (session.deeds id hidden moves) := by
  induction moves generalizing session alone with
  | nil =>
      cases reached
      exact ⟨mirrors, rfl⟩
  | cons move moves induction =>
      obtain ⟨middle, moved, rest⟩ := moves?_cons_iff.mp reached
      have coherentMiddle := coherent_of_moves (moves?_singleton moved) coherent
      have shown : ∀ entry, session.registry.find? id = some entry →
          hidden entry.source = false := by
        intro entry found
        exact fair.head entry (mirrors.same.entry.trans found)
      rw [deeds_cons moved] at fair ⊢
      rw [dealings_cons moved]
      have keeps : ∀ deed ∈ session.deed? id hidden move, deed.keepsCalm = true := by
        intro deed given
        exact fair.keepsCalm deed (List.mem_append_left _ (Option.mem_toList.mpr given))
      have echoes := move?_echoes mirrors coherent shown keeps moved
      cases given : session.deed? id hidden move with
      | none =>
          rw [given] at echoes fair
          exact induction echoes.mirrors coherentMiddle fair rest
      | some deed =>
          rw [given] at echoes fair
          obtain ⟨mirrorsAfter, same⟩ :=
            induction echoes.mirrors coherentMiddle fair.tail rest
          refine ⟨mirrorsAfter, ?_⟩
          rw [Option.map_some, Option.toList_some, List.singleton_append, same,
            ← echoes.answers deed rfl]
          rfl

/-! ## Fair histories -/

/-- A hidden source is never registered under the document in a history. -/
def Hides (session : Session) (id : DocumentId) (hidden : SourceId → Bool)
    (moves : List Move) : Prop :=
  ∀ earlier, earlier <+: moves → ∀ middle, session.moves? earlier = some middle →
    ∀ entry, middle.registry.find? id = some entry → hidden entry.source = false

theorem Hides.head (hides : session.Hides id hidden moves) (entry : Entry)
    (found : session.registry.find? id = some entry) : hidden entry.source = false :=
  hides [] List.nil_prefix session rfl entry found

theorem Hides.tail (hides : session.Hides id hidden (move :: moves))
    (moved : session.move? move = some middle) : middle.Hides id hidden moves := by
  intro earlier before after reached
  exact hides (move :: earlier) ((List.prefix_cons_inj move).mpr before) after
    (moves?_cons_iff.mpr ⟨middle, moved, reached⟩)

theorem Hides.of_prefix (hides : session.Hides id hidden moves) (before : earlier <+: moves) :
    session.Hides id hidden earlier :=
  fun first shorter => hides first (shorter.trans before)

/-- A deed of a session whose scheduler the host goes on holding keeps it calm if no
document that acts is created. -/
theorem keepsCalm_of_move? (coherent : Coherent session.debts session)
    (moved : session.move? move = some middle) (held : middle.held = true)
    (quiet : ∀ source, move = .create source → source.isQuiet = true) :
    ∀ deed ∈ session.deed? id hidden move, deed.keepsCalm = true := by
  intro deed given
  cases move with
  | proceed =>
      rcases deed?_proceed given with ⟨_, rfl | rfl⟩ | ⟨action, frames, rfl, waiting⟩
      · rfl
      · rfl
      · cases action with
        | dropScheduler =>
            cases move?_makes moved
            rw [proceed, waiting] at held
            cases (perform_dropScheduler coherent.distinct frames).symm.trans held
        | _ => rfl
  | tell notice =>
      obtain ⟨_, same⟩ := Option.ite_none_right_eq_some.mp given
      cases same
      rfl
  | create source =>
      cases given
      exact quiet source rfl
  | tick =>
      cases given
      rfl
  | act => cases given
  | highlightNow | wake | poll | complete | fail =>
      obtain ⟨_, same⟩ := Option.ite_none_right_eq_some.mp given
      cases same
      rfl

theorem fair_of_history (mirrors : Mirrors id hidden session alone)
    (coherent : Coherent session.debts session)
    (quiet : ∀ source, .create source ∈ moves → source.isQuiet = true)
    (hides : session.Hides id hidden moves)
    (reached : session.moves? moves = some after) (held : after.held = true) :
    Fair id hidden alone (session.deeds id hidden moves) := by
  induction moves generalizing session alone with
  | nil =>
      refine ⟨List.forall_mem_nil _, ?_⟩
      intro earlier before entry found
      cases List.prefix_nil.mp before
      exact hides.head entry (mirrors.same.entry.symm.trans found)
  | cons move moves induction =>
      obtain ⟨middle, moved, rest⟩ := moves?_cons_iff.mp reached
      have coherentMiddle := coherent_of_moves (moves?_singleton moved) coherent
      have keeps : ∀ deed ∈ session.deed? id hidden move, deed.keepsCalm = true := by
        refine keepsCalm_of_move? coherent moved (held_of_moves rest coherentMiddle held) ?_
        rintro source rfl
        exact quiet source List.mem_cons_self
      have echoes := move?_echoes mirrors coherent hides.head keeps moved
      have fair := induction echoes.mirrors coherentMiddle
        (fun source member => quiet source (List.mem_cons_of_mem move member))
        (hides.tail moved) rest
      rw [deeds_cons moved]
      cases given : session.deed? id hidden move with
      | none =>
          rw [given] at fair
          exact fair
      | some deed =>
          rw [given] at fair
          refine .cons (keeps deed given) ?_ fair
          intro entry found
          exact hides.head entry (mirrors.same.entry.symm.trans found)

end Session

end LogTint
