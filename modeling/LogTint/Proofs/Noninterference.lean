import LogTint.Proofs.Sparing
import Mathlib.Data.List.Infix

/-!
# Documents do not interfere

The host may leave out of a history what it does with other documents, and changes of
texts that the document was never registered for.  What it sees of the document stays the
same: the answers to the steps that name the document, what it is told of the document and
when, and how the document stands after each move.

Moves of the scheduler for other documents need not be possible any more when steps are
left out, and their order is left open.  So the moves that are made in place of one another
are compared, not the moves themselves; what is done for the document is done in the same
order.
-/

namespace LogTint

namespace Session

variable {id : DocumentId} {hidden : SourceId → Bool}
  {session reduced alone after : Session} {history : List (Move × Bool)}
  {pieces : List (List Move)} {moves : List Move}

/-- One session makes pieces of a history where another one makes moves.  The steps of the
host that are not marked are left out, and after each piece the same has been done for the
document. -/
structure LeavesOut (id : DocumentId) (hidden : SourceId → Bool) (session reduced : Session)
    (history : List (Move × Bool)) (pieces : List (List Move)) : Prop where
  isSteps : pieces.map (List.filter Move.isStep) =
    history.map fun made => made.1.kept made.2
  isDeeds : ∀ count, reduced.deeds id hidden (pieces.take count).flatten =
    session.deeds id hidden ((history.take count).map Prod.fst)
  possible : (reduced.moves? pieces.flatten).isSome = true

/-- Two histories are possible, the host is answered alike in them by what names a
document, has been told the same of the document at the same times, and finds it in the
same state and generation. -/
structure SeenAlike (id : DocumentId) (hidden : SourceId → Bool) (session : Session)
    (moves others : List Move) : Prop where
  answers : session.dealings id hidden others = session.dealings id hidden moves
  reaches : ∃ after other, session.moves? moves = some after ∧
    session.moves? others = some other ∧ other.eventsOf id = after.eventsOf id ∧
      (other.registry.find? id).map Entry.info = (after.registry.find? id).map Entry.info

/-- The steps that are not marked can be left out of a history.  Without them the document
is seen alike after each move, whichever moves take the place of the others. -/
structure SeenWithout (id : DocumentId) (hidden : SourceId → Bool) (session : Session)
    (history : List (Move × Bool)) : Prop where
  possible : ∃ pieces, LeavesOut id hidden session session history pieces
  alike : ∀ pieces, LeavesOut id hidden session session history pieces → ∀ count,
    SeenAlike id hidden session ((history.take count).map Prod.fst)
      (pieces.take count).flatten

/-! ## Leaving out steps -/

theorem LeavesOut.nil (session reduced : Session) :
    LeavesOut id hidden session reduced [] [] where
  isSteps := rfl
  isDeeds count := by
    rw [List.take_nil, List.take_nil]
    rfl
  possible := rfl

theorem LeavesOut.cons {move : Move} {marked : Bool} {middle later : Session}
    {piece : List Move} (moved : session.move? move = some middle)
    (reaches : Reaches id hidden reduced later piece (move.kept marked)
      (session.deed? id hidden move).toList)
    (rest : LeavesOut id hidden middle later history pieces) :
    LeavesOut id hidden session reduced ((move, marked) :: history) (piece :: pieces) where
  isSteps := by rw [List.map_cons, List.map_cons, reaches.isSteps, rest.isSteps]
  isDeeds count := by
    cases count with
    | zero => rfl
    | succ count =>
        rw [List.take_succ_cons, List.take_succ_cons, List.flatten_cons, List.map_cons,
          deeds_append reaches.reached, reaches.isDeeds, rest.isDeeds, ← deeds_cons moved]
  possible := by
    obtain ⟨final, reached⟩ := Option.isSome_iff_exists.mp rest.possible
    rw [List.flatten_cons, moves?_append_iff.mpr ⟨later, reaches.reached, reached⟩]
    rfl

/-- Sessions that mirror the same deeds match if one of them is abreast of the other. -/
theorem Mirrors.matches_there (mirrors : Mirrors id hidden session alone)
    (mirrorsThere : Mirrors id hidden reduced alone)
    (abreast : Abreast id hidden session reduced) :
    Matches id hidden false (decide (id ∉ session.debts.edits)) session reduced :=
  mirrors.same.trans (mirrorsThere.settled abreast.free_there).weaken.symm

/-- Steps that spare the document can be left out. -/
theorem exists_leavesOut (mirrors : Mirrors id hidden session alone)
    (mirrorsThere : Mirrors id hidden reduced alone)
    (coherent : Coherent session.debts session)
    (coherentThere : Coherent reduced.debts reduced)
    (abreast : Abreast id hidden session reduced)
    (quiet : ∀ source, .create source ∈ history.map Prod.fst → source.isQuiet = true)
    (hides : session.Hides id hidden (history.map Prod.fst))
    (spares : ∀ move, (move, false) ∈ history → move.isStep = true →
      move.spares id hidden = true)
    (reached : session.moves? (history.map Prod.fst) = some after)
    (held : after.held = true) :
    ∃ pieces, LeavesOut id hidden session reduced history pieces := by
  induction history generalizing session reduced alone with
  | nil => exact ⟨[], .nil session reduced⟩
  | cons made history induction =>
      obtain ⟨move, marked⟩ := made
      rw [List.map_cons] at quiet hides reached
      obtain ⟨middle, moved, rest⟩ := moves?_cons_iff.mp reached
      have coherentMiddle := coherent_of_moves (moves?_singleton moved) coherent
      have heldMiddle := held_of_moves rest coherentMiddle held
      have quietHere : ∀ source, move = .create source → source.isQuiet = true := by
        rintro source rfl
        exact quiet source List.mem_cons_self
      have keepsUp : KeepsUp id hidden reduced middle (move.kept marked)
          (session.deed? id hidden move).toList := by
        refine keepsUp_move? abreast (mirrors.matches_there mirrorsThere abreast)
          mirrors.plain coherent hides.head
          (keepsCalm_of_move? coherent moved heldMiddle quietHere) quietHere ?_ moved
        rintro rfl
        exact spares move List.mem_cons_self
      obtain ⟨piece, later, reaches, abreastLater⟩ := keepsUp
      have deeds : session.deeds id hidden [move] = reduced.deeds id hidden piece := by
        rw [deeds_cons moved, reaches.isDeeds]
        exact List.append_nil _
      have fair : Fair id hidden alone (session.deeds id hidden [move]) := by
        refine fair_of_history mirrors coherent ?_ (hides.of_prefix ?_)
          (moves?_singleton moved) heldMiddle
        · intro source member
          exact quietHere source (List.mem_singleton.mp member).symm
        · exact List.prefix_append [move] _
      obtain ⟨mirrorsMiddle, -⟩ := mirrors.moves? coherent fair (moves?_singleton moved)
      rw [deeds] at fair mirrorsMiddle
      obtain ⟨mirrorsLater, -⟩ := mirrorsThere.moves? coherentThere fair reaches.reached
      obtain ⟨pieces, leaves⟩ := induction mirrorsMiddle mirrorsLater coherentMiddle
        (coherent_of_moves reaches.reached coherentThere) abreastLater
        (fun source member => quiet source (List.mem_cons_of_mem move member))
        (hides.tail moved) (fun move member => spares move (List.mem_cons_of_mem _ member))
        rest
      exact ⟨piece :: pieces, .cons moved reaches leaves⟩

/-! ## What the host sees -/

/-- Histories with the same deeds are seen alike. -/
theorem seenAlike_of_deeds {others : List Move} {other : Session}
    (mirrors : Mirrors id hidden session session) (coherent : Coherent session.debts session)
    (quiet : ∀ source, .create source ∈ moves → source.isQuiet = true)
    (hides : session.Hides id hidden moves)
    (reached : session.moves? moves = some after) (held : after.held = true)
    (reachedThere : session.moves? others = some other)
    (deeds : session.deeds id hidden others = session.deeds id hidden moves) :
    SeenAlike id hidden session moves others := by
  have fair := fair_of_history mirrors coherent quiet hides reached held
  have fairThere : Fair id hidden session (session.deeds id hidden others) := by rwa [deeds]
  obtain ⟨shows, answers⟩ := mirrors.moves? coherent fair reached
  obtain ⟨showsThere, answersThere⟩ := mirrors.moves? coherent fairThere reachedThere
  rw [deeds] at showsThere answersThere
  refine ⟨answersThere.trans answers.symm, after, other, reached, reachedThere, ?_, ?_⟩
  · exact showsThere.same.events.symm.trans shows.same.events
  · exact congrArg (Option.map Entry.info)
      (showsThere.same.entry.symm.trans shows.same.entry)

/-- A session that has just begun mirrors itself. -/
theorem mirrors_initial (id : DocumentId) (hidden : SourceId → Bool) (settings : Settings)
    {cache : Option Cache} (sound : ∀ given, cache = some given → given.Sound) :
    Mirrors id hidden (initial settings cache) (initial settings cache) where
  same := .of_calm
    { held := rfl
      quiet := List.forall_mem_nil _
      sound := sound
      numbered := ⟨List.nodup_nil, List.forall_mem_nil _⟩ }
  plain := rfl

/-- As long as the host holds the scheduler, whatever steps on other documents it leaves
out of a history, and whatever changes of texts that the document was never registered for,
it sees the same of the document after each move. -/
theorem documents_independent (id : DocumentId) (hidden : SourceId → Bool)
    {settings : Settings} {cache : Option Cache}
    (sound : ∀ given, cache = some given → given.Sound)
    (reached : (initial settings cache).moves? (history.map Prod.fst) = some after)
    (held : after.held = true)
    (quiet : ∀ source, .create source ∈ history.map Prod.fst → source.isQuiet = true)
    (hides : (initial settings cache).Hides id hidden (history.map Prod.fst))
    (spares : ∀ move, (move, false) ∈ history → move.isStep = true →
      move.spares id hidden = true) :
    SeenWithout id hidden (initial settings cache) history := by
  have mirrors := mirrors_initial id hidden settings sound
  have coherent := Coherent.initial settings cache
  constructor
  · exact exists_leavesOut mirrors mirrors coherent coherent
      (.level rfl List.not_mem_nil nofun) quiet hides spares reached held
  · intro pieces leaves count
    have before : (history.take count).map Prod.fst <+: history.map Prod.fst :=
      (List.take_prefix count history).map Prod.fst
    have beforeThere : (pieces.take count).flatten <+: pieces.flatten := by
      refine ⟨(pieces.drop count).flatten, ?_⟩
      rw [← List.flatten_append, List.take_append_drop]
    obtain ⟨final, reachedThere⟩ := Option.isSome_iff_exists.mp leaves.possible
    obtain ⟨later, middle, here, rest⟩ := moves?_of_prefix before reached
    obtain ⟨_, other, there, -⟩ := moves?_of_prefix beforeThere reachedThere
    refine seenAlike_of_deeds mirrors coherent
      (fun source member => quiet source (before.subset member)) (hides.of_prefix before)
      here ?_ there (leaves.isDeeds count)
    exact held_of_moves rest (coherent_of_moves here coherent) held

/-- A history with two documents.  A run of the second one is under way when the timer of
the first one fires, and while the other computes.  The steps that spare the first document
are not marked. -/
def overlapping : List (Move × Bool) :=
  [(.create (.quiet ['a'] true .tracked), true), (.create (.quiet ['b'] true .tracked), true),
    (.act (.register 0), true), (.proceed, true), (.proceed, true), (.proceed, true),
    (.act (.register 1), true), (.proceed, true), (.proceed, true), (.proceed, true),
    (.act (.edit ⟨1⟩), true), (.proceed, true), (.proceed, true), (.proceed, true),
    (.proceed, true), (.act (.replace 1 ['c']), false), (.proceed, true), (.proceed, true),
    (.proceed, true), (.highlightNow ⟨2⟩, false), (.proceed, true), (.tick 200, true),
    (.wake ⟨1⟩ 1, true), (.poll ⟨1⟩ 1 0, true), (.proceed, true),
    (.act (.unregister ⟨2⟩), false), (.complete ⟨2⟩ 1, true), (.proceed, true),
    (.proceed, true), (.proceed, true), (.complete ⟨1⟩ 1, true), (.poll ⟨1⟩ 1 0, true),
    (.poll ⟨2⟩ 1 0, true)]

theorem documents_independent_of_overlapping :
    ∃ after, (initial .standard none).moves? (overlapping.map Prod.fst) = some after ∧
      after.eventsOf ⟨1⟩ = [(200, .highlights ⟨1⟩
        ⟨1, ['a'], Highlights.compute ['a'] Settings.standard.highlightConfig⟩)] ∧
      SeenWithout ⟨1⟩ (· == 1) (initial .standard none) overlapping := by
  have never : ∀ earlier ∈ (overlapping.map Prod.fst).inits,
      (((initial .standard none).moves? earlier).all fun session =>
        (session.registry.find? ⟨1⟩).all (!·.source == 1)) = true := by
    decide +kernel
  have reached : (initial .standard none).moves? (overlapping.map Prod.fst) = some _ := rfl
  refine ⟨_, reached, rfl, documents_independent ⟨1⟩ (· == 1) nofun reached rfl ?_ ?_ ?_⟩
  · intro source member
    simp only [overlapping, List.map_cons, List.map_nil, List.mem_cons, Move.create.injEq,
      reduceCtorEq, List.not_mem_nil, or_false] at member
    rcases member with rfl | rfl <;> rfl
  · intro earlier before session here entry found
    have other := never earlier ((List.mem_inits _ _).mpr before)
    rw [here, Option.all_some, found, Option.all_some] at other
    exact Bool.not_eq_true' _ |>.mp other
  · intro move member stepped
    simp only [overlapping, List.mem_cons, Prod.mk.injEq, reduceCtorEq, and_false,
      and_true, List.not_mem_nil, or_false, false_or] at member
    rcases member with rfl | rfl | rfl <;> rfl

/-- The host has to hold the scheduler.  A call for the second document keeps it going when
the host gives it up, so that the timer of the first one still fires. -/
example :
    let edited := (overlapping.take 15).map Prod.fst
    let call := [.highlightNow ⟨2⟩, .proceed]
    let left := .act .dropScheduler :: List.replicate 3 .proceed ++ [.tick 200, .wake ⟨1⟩ 1]
    ((initial .standard none).moves? (edited ++ call ++ left)).isSome = true ∧
      (initial .standard none).moves? (edited ++ left) = none := by
  decide +kernel

end Session

end LogTint
