import GraphSession.Proofs.Schedule.Flights
import GraphSession.Proofs.Session.Course
import GraphSession.Rehearsal.Session

/-!
# What is rehearsed on a session is a course

Calls that are rehearsed on a session take turns in a flight, and what they ask for is answered by
scripts. In a course anybody may go next, and any answer may come at any time. So the turns and
answers that a rehearsal has chosen are among those of the courses (`Course.Shows.next`,
`Course.Shows.run`), and what holds of all courses holds of every rehearsal of syncs and
cancellations (`Course.exists_rehearsed`).

**Waiting at a gate.** A script may answer at once and still make the caller wait at a gate. To the
course nothing has happened yet then: the call is where it asked (`Play.front`), and it is answered
when it goes through the gate. The answer is the one that was given before (`Play.Owes`), so it does
not matter what has become of the scripts meanwhile.
-/

namespace GraphSession

namespace Scene

/-- No answer of a script touches the session. -/
theorem session_answer (s : Scene) (r : Request) : (s.answer r).2.2.session = s.session := by
  cases r with
  | thumbnail =>
    rw [answer]
    cases s.camera <;> rfl
  | submission p | files | content key | upload p n f bs | deletion key | view handle => rfl

/-- Asking others changes nothing in the session. -/
theorem session_ask (s : Scene) (r : Request) : (s.ask r).2.2.session = s.session :=
  session_answer _ r

end Scene

namespace Play

/-- Where a call is to a course: behind a gate it is still where it has asked. -/
def front : Play → SessionCall
  | on c => c
  | behind _ _ c _ => c

/-- Behind a gate a call goes on with an answer to its question. -/
def Owes : Play → Prop
  | on _ => True
  | behind _ _ c next => ∃ q a, c.question? = some q ∧ next = q.resume a

/-- What a turn in a scene comes to. -/
inductive Outcome (s s' : Scene) (c : SessionCall) : Play → Prop
  /-- The call takes a turn of its own. -/
  | turn {c' : SessionCall} (turn : c.turn s.session = .moves s'.session c') :
      Outcome s s' c (.on c')
  /-- It is answered. -/
  | answer {q : Question SessionCall} (asked : c.question? = some q)
      (a : Except Failure q.request.Answer) (session : s'.session = s.session) :
      Outcome s s' c (.on (q.resume a))
  /-- It comes to a gate. -/
  | gate {q : Question SessionCall} (asked : c.question? = some q)
      (a : Except Failure q.request.Answer) (gate : String) (ticket : Nat)
      (session : s'.session = s.session) : Outcome s s' c (.behind gate ticket c (q.resume a))

variable {s s' : Scene} {play play' : Play} {r : SessionResult}

/-- A turn in a scene is a turn of the call, an answer to it, or the way to a gate. -/
theorem outcome_of_moves (howes : play.Owes) (h : play.turn s = .moves s' play') :
    Outcome s s' play.front play' := by
  cases play with
  | behind gate ticket c next =>
    -- the answer has been waiting, and the gate is open now
    obtain ⟨q, a, asked, rfl⟩ := howes
    rw [turn] at h
    split_ifs at h
    cases h
    exact .answer asked a rfl
  | on c =>
    rw [turn] at h
    cases hq : c.question? with
    | none =>
      rw [hq] at h
      simp only at h
      cases hturn : c.turn s.session <;> rw [hturn] at h <;> cases h
      exact .turn hturn
    | some q =>
      rw [hq] at h
      simp only [turnQuestion] at h
      have hsession := s.session_ask q.request
      rcases hask : s.ask q.request with ⟨_ | gate, a, asked⟩ <;> rw [hask] at h hsession
        <;> cases h
      · exact .answer hq a hsession
      · exact .gate hq a gate _ hsession

/-- A call returns on a turn of its own. -/
theorem turn_of_ends (h : play.turn s = .ends s' r) :
    play.front.turn s.session = .ends s'.session r := by
  cases play with
  | behind gate ticket c next =>
    rw [turn] at h
    split_ifs at h
  | on c =>
    rw [turn] at h
    cases hq : c.question? with
    | none =>
      rw [hq] at h
      simp only at h
      cases hturn : c.turn s.session <;> rw [hturn] at h <;> cases h
      exact hturn
    | some q =>
      rw [hq] at h
      simp only [turnQuestion] at h
      rcases hask : s.ask q.request with ⟨_ | gate, a, asked⟩ <;> rw [hask] at h <;> cases h

/-- A call that is given up behind a gate is given up where it has asked. -/
theorem session_abandon (s : Scene) (play : Play) :
    (play.abandon s).session = play.front.abandon s.session := by
  cases play <;> rfl

end Play

namespace Course

/-- The course and the flight have the same session, and the same calls under the same numbers. -/
structure Shows (w : Course) (f : SessionRehearsal) : Prop where
  session : w.session = f.shared.session
  calls : ∀ i, w.call? i = (f.call? i).map Play.front
  owes : ∀ i play, f.call? i = some play → play.Owes
  made : w.calls.length = f.made.length
  numbered : f.Numbered

variable {w : Course} {f f' : SessionRehearsal} {i : Nat} {play : Play} {c : SessionCall}

theorem shows_start (s : Scene) : (start s.session).Shows (.start s) where
  session := rfl
  calls _ := rfl
  owes i play hi := by
    rw [Flight.call?_start] at hi
    cases hi
  made := rfl
  numbered := Flight.numbered_start s

/-- Any answer may come. -/
theorem exists_answer {q : Question SessionCall} (hc : w.call? i = some c)
    (hq : c.question? = some q) (a : Except Failure q.request.Answer) :
    ∃ say act, w.step (.answer i say) = w.proceed i w.session (some (q.resume a)) act := by
  classical
  refine ⟨Function.update (fun _ ↦ .error .serialization) q.request a, Act.ofAnswer q.request a, ?_⟩
  rw [step, onCall, hc]
  simp only [resume, hq, Function.update_self]

namespace Shows

/-! ### Turns -/

/-- A call of the flight is the call of that number in the course. -/
theorem call?_eq (hw : w.Shows f) (hi : f.call? i = some play) : w.call? i = some play.front := by
  rw [hw.calls, hi, Option.map_some]

/-- A call goes on, or returns. -/
theorem proceed (hw : w.Shows f) (next : Option Play) {act : Option Act}
    (hi : f.call? i = some play) (hcalls : f'.call? = Function.update f.call? i next)
    (howes : ∀ play' ∈ next, play'.Owes) (hmade : f'.made = f.made) (hf' : f'.Numbered) :
    (w.proceed i f'.shared.session (next.map Play.front) act).Shows f' where
  session := rfl
  calls j := by
    rw [call?_proceed (hw.call?_eq hi), hcalls]
    rcases eq_or_ne j i with rfl | hj
    · rw [Function.update_self, Function.update_self]
    · rw [Function.update_of_ne hj, Function.update_of_ne hj, hw.calls]
  owes j play' hj := by
    rw [hcalls] at hj
    rcases update_eq_some_iff.1 hj with ⟨-, hnext⟩ | ⟨-, hold⟩
    · exact howes play' hnext
    · exact hw.owes j play' hold
  made := by rw [hmade, ← hw.made, Course.proceed, List.length_set]
  numbered := hf'

/-- A call comes to a gate, and a course notices nothing. -/
theorem halt (hw : w.Shows f) {play' : Play} (hi : f.call? i = some play)
    (hcalls : f'.call? = Function.update f.call? i (some play')) (hfront : play'.front = play.front)
    (howes : play'.Owes) (hsession : f'.shared.session = f.shared.session)
    (hmade : f'.made = f.made) (hf' : f'.Numbered) : w.Shows f' where
  session := hw.session.trans hsession.symm
  calls j := by
    rw [hcalls]
    rcases eq_or_ne j i with rfl | hj
    · rw [Function.update_self, Option.map_some, hfront, hw.call?_eq hi]
    · rw [Function.update_of_ne hj, hw.calls]
  owes j other hj := by
    rw [hcalls] at hj
    rcases update_eq_some_iff.1 hj with ⟨-, hnext⟩ | ⟨-, hold⟩
    · exact Option.some.inj hnext ▸ howes
    · exact hw.owes j other hold
  made := hmade ▸ hw.made
  numbered := hf'

/-- **One turn of a flight** is the turn of one call, or an answer to it, or nothing that a course
would notice. -/
theorem next (hw : w.Shows f) (hnext : f.next? Play.machine = some f') :
    w.Shows f' ∨ ∃ h i, h.caller? = some i ∧ h.isDrop = false ∧ (w.step h).Shows f' := by
  have hmade := Flight.made_of_next? hnext
  have hnumbered := hw.numbered.of_next? hnext
  cases Flight.step_of_next? hnext with
  | idle shared calls _ =>
    -- nobody has gone on
    refine .inl ⟨shared ▸ hw.session, calls ▸ hw.calls, calls ▸ hw.owes, hmade ▸ hw.made, hnumbered⟩
  | moves i play play' before turn calls _ =>
    have hc := hw.call?_eq before
    cases Play.outcome_of_moves (hw.owes i play before) turn with
    | @turn c' hturn =>
      rw [← hw.session] at hturn
      have hstep : w.step (.turn i) =
          w.proceed i f'.shared.session (some c') (actOf w.session play.front) := by
        rw [step, onCall, hc]
        simp only [takeTurn, hturn]
      refine .inr ⟨.turn i, i, rfl, rfl, ?_⟩
      rw [hstep]
      exact hw.proceed (some (.on c')) before calls (fun _ h ↦ Option.some.inj h ▸ trivial) hmade
        hnumbered
    | @answer q asked a hsession =>
      -- the script has answered at once, so in the course the answer comes now
      obtain ⟨say, act, hstep⟩ := exists_answer hc asked a
      refine .inr ⟨.answer i say, i, rfl, rfl, ?_⟩
      rw [hstep, hw.session, ← hsession]
      exact hw.proceed (some (.on (q.resume a))) before calls
        (fun _ h ↦ Option.some.inj h ▸ trivial) hmade hnumbered
    | gate asked a name ticket hsession =>
      -- the answer waits behind a gate, so in the course nothing has happened
      exact .inl (hw.halt before calls rfl ⟨_, a, asked, rfl⟩ hsession hmade hnumbered)
  | ends i play label r before turn calls _ =>
    have hc := hw.call?_eq before
    have hturn := Play.turn_of_ends turn
    rw [← hw.session] at hturn
    have hstep : w.step (.turn i) =
        w.proceed i f'.shared.session none (actOf w.session play.front) := by
      rw [step, onCall, hc]
      simp only [takeTurn, hturn]
    refine .inr ⟨.turn i, i, rfl, rfl, ?_⟩
    rw [hstep]
    exact hw.proceed none before calls (fun _ h ↦ absurd h (Option.not_mem_none _)) hmade hnumbered

/-- **However many turns a flight takes,** they are turns and answers of a course. -/
theorem run (hw : w.Shows f) (n : Nat) :
    ∃ hs, (∀ h ∈ hs, h.caller?.isSome = true ∧ h.isDrop = false) ∧
      (w.run hs).Shows (f.run Play.machine n) := by
  refine Flight.run_of_step (P := fun f ↦ ∃ hs,
    (∀ h ∈ hs, h.caller?.isSome = true ∧ h.isDrop = false) ∧ (w.run hs).Shows f)
    (fun f f' ⟨hs, hplayed, hw⟩ hnext ↦ ?_) n ⟨[], List.forall_mem_nil _, hw⟩
  rcases hw.next hnext with hsame | ⟨h, i, hcaller, hdrop, hstep⟩
  · exact ⟨hs, hplayed, hsame⟩
  · refine ⟨hs ++ [h], fun h' hmem ↦ ?_, by rwa [run_concat]⟩
    rcases List.mem_append.1 hmem with hold | hnew
    · exact hplayed h' hold
    · rw [List.mem_singleton.1 hnew, hcaller]
      exact ⟨rfl, hdrop⟩

/-- Who comes into the queue makes no difference to a course. -/
theorem settle (hw : w.Shows f) (n : Nat) :
    ∃ hs, (∀ h ∈ hs, h.caller?.isSome = true ∧ h.isDrop = false) ∧
      (w.run hs).Shows (f.settle Play.machine n) := by
  have hroused : w.Shows (f.rouse Play.machine) :=
    ⟨hw.session, hw.calls, hw.owes, hw.made, hw.numbered.of_sublist (List.Sublist.refl _) rfl⟩
  exact hroused.run n

/-! ### Between the turns -/

/-- The session is changed from outside of all calls. -/
theorem change (hw : w.Shows f) (h : Happening) (g : Session → Session)
    (hsession : (w.step h).session = g w.session) (hcalls : (w.step h).calls = w.calls) :
    (w.step h).Shows (f.onSession g) where
  session := hsession.trans (congrArg g hw.session)
  calls i := (congrFun (congrArg callAt? hcalls) i).trans (hw.calls i)
  owes := hw.owes
  made := hcalls ▸ hw.made
  numbered := hw.numbered.of_sublist (List.Sublist.refl _) rfl

/-- A call is made. -/
theorem launch (hw : w.Shows f) (label : String) (c : SessionCall) :
    (w.launch c).Shows (f.call label c) := by
  have hcalls := hw.numbered.call?_launch label (Play.on c)
  refine ⟨hw.session, fun i ↦ ?_, fun i play hi ↦ ?_, ?_, hw.numbered.launch label (Play.on c)⟩
  · rw [call?_launch, SessionRehearsal.call, hcalls, hw.made]
    rcases eq_or_ne i f.made.length with rfl | hi
    · rw [Function.update_self, Function.update_self]
      rfl
    · rw [Function.update_of_ne hi, Function.update_of_ne hi, hw.calls]
  · rw [SessionRehearsal.call, hcalls] at hi
    rcases update_eq_some_iff.1 hi with ⟨-, hnew⟩ | ⟨-, hold⟩
    · exact Option.some.inj hnew ▸ trivial
    · exact hw.owes i play hold
  · have hlength : (f.made ++ [label]).length = f.made.length + 1 := List.length_append
    rw [Course.launch, List.length_append, hw.made]
    exact hlength.symm

/-- A call is given up. -/
theorem abort (hw : w.Shows f) (label : String) :
    w.Shows (f.abort label).2 ∨ ∃ i, (w.step (.drop i)).Shows (f.abort label).2 := by
  rw [SessionRehearsal.abort]
  rcases hw.numbered.giveUp Play.machine label with hnobody | ⟨i, play, before, -, hshared, hrest⟩
  · exact .inl (hnobody ▸ hw)
  · obtain ⟨calls, hmade, hnumbered⟩ := hrest
    have hsession : (f.giveUp Play.machine label).2.shared.session =
        play.front.abandon w.session := by
      rw [hshared, hw.session]
      exact play.session_abandon f.shared
    refine .inr ⟨i, ?_⟩
    rw [step, onCall, hw.call?_eq before]
    show (w.proceed i (play.front.abandon w.session) none none).Shows _
    rw [← hsession]
    exact hw.proceed none before calls (fun _ h ↦ absurd h (Option.not_mem_none _)) hmade hnumbered

end Shows

end Course

/-! ### Whole rehearsals -/

/-- What can be rehearsed of syncs and cancellations. -/
inductive SessionCue where
  | sync (label : String)
  | cancel (label : String)
  | abort (label : String)
  | openGate (name : String)
  | serve (m : ServerMove)
  | edit (g : EditorGraph)
  | write (p : Project)
  | wait (ms : Nat) (clock : Moment)
  /-- The calls take turns until each has to wait. -/
  | rest

/-- What a cue makes of a rehearsal. -/
def SessionCue.play (r : SessionRehearsal) : SessionCue → SessionRehearsal
  | sync label => r.call label (.sync .called)
  | cancel label => r.call label .cancel
  | abort label => (r.abort label).2
  | openGate name => r.openGate name
  | serve m => r.onSession fun s ↦ s.onDesk fun d ↦ d.onConnector m.play
  | edit g => r.onSession fun s ↦ { s with graph := g }
  | write p => r.onSession fun s ↦ s.onProject fun _ ↦ p
  | wait ms clock => r.onSession fun s ↦ { s.onDesk fun d ↦ d.advance ms with clock := clock }
  | rest => r.rest

namespace Course

variable {w : Course} {r : SessionRehearsal}

/-- **One cue** is some happenings of a course. -/
theorem Shows.play (hw : w.Shows r) (cue : SessionCue) : ∃ hs, (w.run hs).Shows (cue.play r) := by
  cases cue with
  | sync label => exact ⟨[.sync], hw.launch label _⟩
  | cancel label => exact ⟨[.cancel], hw.launch label _⟩
  | abort label =>
    rcases hw.abort label with hnobody | ⟨i, hgone⟩
    · exact ⟨[], hnobody⟩
    · exact ⟨[.drop i], hgone⟩
  | openGate name =>
    exact ⟨[], hw.session, hw.calls, hw.owes, hw.made,
      hw.numbered.of_sublist (List.Sublist.refl _) rfl⟩
  | serve m =>
    exact ⟨[.serve m], hw.change (.serve m) (fun s ↦ s.onDesk fun d ↦ d.onConnector m.play) rfl rfl⟩
  | edit g => exact ⟨[.edit g], hw.change (.edit g) (fun s ↦ { s with graph := g }) rfl rfl⟩
  | write p => exact ⟨[.write p], hw.change (.write p) (fun s ↦ s.onProject fun _ ↦ p) rfl rfl⟩
  | wait ms clock =>
    exact ⟨[.wait ms clock], hw.change (.wait ms clock)
      (fun s ↦ { s.onDesk fun d ↦ d.advance ms with clock := clock }) rfl rfl⟩
  | rest =>
    obtain ⟨hs, -, hrest⟩ := hw.settle r.turnsLeft
    exact ⟨hs, hrest⟩

/-- **Whatever is rehearsed is a course:** whatever the scripts say and whichever cues are given,
there is one that has the same session, and the same calls in flight. -/
theorem exists_rehearsed (s : Scene) (cues : List SessionCue) :
    ∃ hs, ((start s.session).run hs).Shows (cues.foldl SessionCue.play (.start s)) := by
  induction cues using List.reverseRecOn with
  | nil => exact ⟨[], shows_start s⟩
  | append_singleton cues cue ih =>
    obtain ⟨hs, hw⟩ := ih
    obtain ⟨hs', hw'⟩ := hw.play cue
    refine ⟨hs ++ hs', ?_⟩
    rw [run_append, List.foldl_concat]
    exact hw'

end Course

end GraphSession
