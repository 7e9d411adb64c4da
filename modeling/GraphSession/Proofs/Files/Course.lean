import GraphSession.Proofs.Files.Direct
import GraphSession.Proofs.Schedule.Moments
import GraphSession.Proofs.Schedule.Places

/-!
# Calls about files that overlap

A course of files is a session, whoever keeps the files, the calls about files that are in flight,
and what was done about files so far. Anything can happen next (`FileMove`): another call is made,
some call takes its turn or is given up, the service comes to the request of some call, somebody
else changes the files, time passes. Between any two turns of a call, and between its request and
the service's coming to it, the others may do what they like.

**The past.** What is done about files is kept in the order it was done (`FileAct`). Nothing depends
on it. It tells apart when the service answered a read from when the content was cached, and when
the service carried out an upload or a delete from when the cached content was dropped.

* `Access.Change`: what one call does at a time, to the cache and to the past.
* `FileCourse.Coherent`: what the past says about the calls in flight and about what is cached, at
  any time of any course (`coherent_run`).
-/

namespace GraphSession

variable {ω σ : Type}

/-- Something done about a file. -/
inductive FileAct (σ : Type) where
  /-- A read finds the content cached, and returns it. -/
  | took (key : String) (c : FileContent)
  /-- A read does not find the content cached, and asks for it. -/
  | asked (key : String)
  /-- The service answers a read in a state. -/
  | served (key : String) (c : FileContent) (t : σ)
  /-- A read caches what it was served, and returns it. -/
  | stored (key : String) (c : FileContent)
  /-- The service carries out an upload or a delete. -/
  | changed (key : String)
  /-- An upload or a delete drops what is cached, and returns. -/
  | forgot (key : String)

/-- Something done about a file, with the number of the call that did it. -/
structure FileDeed (σ : Type) where
  caller : Nat
  act : FileAct σ

/-- What can happen next. -/
inductive FileMove (ω σ : Type) where
  | call (c : FileCall)
  /-- It is the turn of a call. -/
  | turn (i : Nat)
  /-- The service comes to the request of a call, in some weather. -/
  | answer (i : Nat) (w : ω)
  /-- A call is given up. -/
  | drop (i : Nat)
  /-- Somebody else changes the files. -/
  | elsewhere (t : σ)
  | wait (ms : Nat)

namespace FileAct

/-- What an answer of the service says that was done. -/
def ofAnswer (t : σ) : (r : Request) → Except Failure r.Answer → Option (FileAct σ)
  | .content key, .ok c => some (.served key c t)
  | .upload _ _ _ _, .ok file => some (.changed file.key)
  | .deletion key, .ok _ => some (.changed key)
  | _, _ => none

end FileAct

/-! ### What was done before -/

/-- Whether what is cached under a key is written or dropped. -/
def FileAct.writes (key : String) : FileAct σ → Bool
  | stored k _ | forgot k => k = key
  | _ => false

/-- Of those who have written or dropped what is cached under a key, the last was a read. -/
def LastStored (past : List (FileDeed σ)) (key : String) (i : Nat) (c : FileContent) : Prop :=
  ∃ before since, past = before ++ ⟨i, .stored key c⟩ :: since ∧
    ∀ d ∈ since, d.act.writes key = false

namespace LastStored

variable {past more : List (FileDeed σ)} {key : String} {i j : Nat} {c d : FileContent}

/-- Nothing was written or dropped since. -/
theorem append (h : LastStored past key i c) (hmore : ∀ d ∈ more, d.act.writes key = false) :
    LastStored (past ++ more) key i c := by
  obtain ⟨before, since, rfl, hsince⟩ := h
  refine ⟨before, since ++ more, by simp, fun d hd ↦ ?_⟩
  rcases List.mem_append.1 hd with hd | hd
  · exact hsince d hd
  · exact hmore d hd

/-- What was stored last was stored by one read, and is one content. -/
theorem unique (h : LastStored past key i c) (h' : LastStored past key j d) : i = j ∧ c = d := by
  obtain ⟨before, since, rfl, hsince⟩ := h
  obtain ⟨before', since', hpast, hsince'⟩ := h'
  rcases moment_cases hpast with ⟨-, hdeed, -⟩ | ⟨-, hd⟩ | ⟨-, hd⟩
  · obtain ⟨rfl, hact⟩ := FileDeed.mk.inj hdeed
    exact ⟨rfl, (FileAct.stored.inj hact).2⟩
  · simpa [FileAct.writes] using hsince _ hd
  · simpa [FileAct.writes] using hsince' _ hd

end LastStored

/-- What was done before something that a call does. -/
def FileAct.Follows (v : FileService ω σ) (past : List (FileDeed σ)) (i : Nat) : FileAct σ → Prop
  | took key c => (∀ d ∈ past, d.caller ≠ i) ∧ ∃ j, LastStored past key j c
  | asked _ | changed _ => ∀ d ∈ past, d.caller ≠ i
  | served key c t => ⟨i, asked key⟩ ∈ past ∧ v.held t key = some c
  | stored key c => ∃ t, ⟨i, served key c t⟩ ∈ past
  | forgot key => ⟨i, changed key⟩ ∈ past

/-- The place of a call when it was just made. A list passes the cache by. -/
def FileCall.access? : FileCall → Option Access
  | content key => some (.content key)
  | list => none
  | upload projectId nodeId filename bytes => some (.upload projectId nodeId filename bytes)
  | delete key => some (.deletion key)

namespace Access

/-- What a call does about files on its turn. -/
def fileAct? (s : Session) : Access → Option (FileAct σ)
  | content key =>
    match s.files.get? key with
    | some c => some (.took key c)
    | none => some (.asked key)
  | fetched key (.ok c) => some (.stored key c)
  | uploaded (.ok file) => some (.forgot file.key)
  | deleted key (.ok _) => some (.forgot key)
  | _ => none

/-- What the place of a call says about the past. -/
def Account (past : List (FileDeed σ)) (i : Nat) : Access → Prop
  | content _ | upload _ _ _ _ | deletion _ => ∀ d ∈ past, d.caller ≠ i
  | fetching key => ⟨i, .asked key⟩ ∈ past
  | fetched key (.ok c) => ∃ t, ⟨i, .served key c t⟩ ∈ past
  | uploaded (.ok file) => ⟨i, .changed file.key⟩ ∈ past
  | deleted key (.ok _) => ⟨i, .changed key⟩ ∈ past
  | _ => True

/-- What a call does at a time: to the cache, while the service is in a state, and to its own
place. -/
inductive Change (v : FileService ω σ) (c : FileCache) (t : σ) :
    Access → FileCache → Option Access → Option (FileAct σ) → Prop
  | take {key : String} {a : FileContent} (now : Nat) (h : c.get? key = some a) :
      Change v c t (content key) (c.hit key now) none (some (.took key a))
  | ask (key : String) : Change v c t (content key) c (some (fetching key)) (some (.asked key))
  | serve {key : String} {a : FileContent} (h : v.held t key = some a) :
      Change v c t (fetching key) c (some (fetched key (.ok a))) (some (.served key a t))
  | store (key : String) (a : FileContent) (now : Nat) :
      Change v c t (fetched key (.ok a)) (c.put key a now) none (some (.stored key a))
  | upload (p : Int) (n f : String) (bs : List UInt8) (file : FileRef) :
      Change v c t (upload p n f bs) c (some (uploaded (.ok file))) (some (.changed file.key))
  | delete (key : String) (u : Unit) :
      Change v c t (deletion key) c (some (deleted key (.ok u))) (some (.changed key))
  | forgetUploaded (file : FileRef) :
      Change v c t (uploaded (.ok file)) (c.remove file.key) none (some (.forgot file.key))
  | forgetDeleted (key : String) (u : Unit) :
      Change v c t (deleted key (.ok u)) (c.remove key) none (some (.forgot key))
  /-- Nothing is done, and nothing can be told of the call any more. -/
  | idle (a : Access) {next : Option Access}
      (h : ∀ b ∈ next, ∀ (past : List (FileDeed σ)) i, b.Account past i) :
      Change v c t a c next none

variable {v : FileService ω σ} {c c' : FileCache} {t : σ} {s : Session} {a : Access}
  {next : Option Access} {act : Option (FileAct σ)} {past : List (FileDeed σ)} {i : Nat}

/-! ### What calls do -/

/-- An access goes on without an act, if nothing has to be accounted for. -/
theorem Change.idle_some (a : Access) {b : Access}
    (h : ∀ (past : List (FileDeed σ)) i, b.Account past i) : Change v c t a c (some b) none :=
  .idle a fun _ hb ↦ Option.some.inj hb ▸ h

/-- An access ends without an act. -/
theorem Change.idle_none (a : Access) : Change v c t a c none none :=
  .idle a fun b hb ↦ absurd hb (Option.not_mem_none b)

/-- What a call does that goes on to another place. -/
theorem change_of_moves {s' : Session} {b : Access} (h : a.turn s = .moves s' b) :
    Change v s.files t a s'.files (some b) (a.fileAct? s) := by
  cases a with
  | content key =>
    simp only [turn, turnContent, FrequencyCache.beginFetch] at h
    cases hcached : s.files.get? key with
    | some d => simp [hcached] at h
    | none =>
      simp only [hcached, Turn.moves.injEq] at h
      obtain ⟨rfl, rfl⟩ := h
      rw [fileAct?, hcached]
      exact .ask key
  | view handle =>
    simp only [turn, turnView] at h
    split at h <;> cases h
    exact .idle_some _ fun _ _ ↦ trivial
  | _ => cases h

/-- What a call does that returns. -/
theorem change_of_ends {s' : Session} {r : AccessResult} (h : a.turn s = .ends s' r) :
    Change v s.files t a s'.files none (a.fileAct? s) := by
  cases a with
  | content key =>
    simp only [turn, turnContent, FrequencyCache.beginFetch] at h
    cases hcached : s.files.get? key with
    | some d =>
      simp only [hcached, Turn.ends.injEq] at h
      obtain ⟨rfl, -⟩ := h
      rw [fileAct?, hcached]
      exact .take _ hcached
    | none => simp [hcached] at h
  | fetched key r =>
    cases h
    cases r with
    | ok d => exact .store key d _
    | error e => exact .idle_none _
  | uploaded r =>
    cases h
    cases r with
    | ok file => exact .forgetUploaded file
    | error e => exact .idle_none _
  | deleted key r =>
    cases h
    cases r with
    | ok u => exact .forgetDeleted key u
    | error e => exact .idle_none _
  | view handle =>
    simp only [turn, turnView] at h
    split at h <;> cases h
    exact .idle_none _
  | looked handle r =>
    cases h
    exact .idle_none _
  | _ => cases h

/-- What happens when the service comes to a request. -/
theorem change_of_answer (hv : v.Truthful) {q : Question Access} (h : a.question? = some q)
    (w : ω) :
    Change v s.files t a s.files (some (q.resume (v.answer w t q.request).1))
      (FileAct.ofAnswer t q.request (v.answer w t q.request).1) := by
  cases a with
  | fetching key =>
    cases h
    cases hanswer : v.answer w t (.content key) with
    | mk r t' =>
      -- the service answers with what it holds
      cases r with
      | ok d => exact .serve (hv hanswer)
      | error e => exact .idle_some _ fun _ _ ↦ trivial
  | upload p n f bs =>
    cases h
    cases v.answer w t (.upload p n f bs) with
    | mk r t' =>
      cases r with
      | ok file => exact .upload p n f bs file
      | error e => exact .idle_some _ fun _ _ ↦ trivial
  | deletion key =>
    cases h
    cases v.answer w t (.deletion key) with
    | mk r t' =>
      cases r with
      | ok u => exact .delete key u
      | error e => exact .idle_some _ fun _ _ ↦ trivial
  | looking handle =>
    cases h
    exact .idle_some _ fun _ _ ↦ trivial
  | _ => cases h

/-! ### What the past says -/

/-- What a call does fits what it has done. -/
theorem Change.follows (h : Change v c t a c' next act) (ha : a.Account past i)
    (hc : ∀ key d, c.get? key = some d → ∃ j, LastStored past key j d) :
    ∀ e ∈ act, e.Follows v past i := by
  intro e he
  cases h with
  | idle => cases he
  | take now hcached =>
    cases he
    exact ⟨ha, hc _ _ hcached⟩
  | serve hheld =>
    cases he
    exact ⟨ha, hheld⟩
  | ask | store | upload | delete | forgetUploaded | forgetDeleted =>
    cases he
    exact ha

/-- The place that a call has got to fits what it has done. -/
theorem Change.account (h : Change v c t a c' next act) :
    ∀ b ∈ next, b.Account (past ++ act.toList.map (FileDeed.mk i)) i := by
  intro b hb
  cases h with
  | serve =>
    cases hb
    exact ⟨t, by simp⟩
  | ask | upload | delete =>
    cases hb
    simp [Account]
  | idle a h => exact h b hb _ i
  | take | store | forgetUploaded | forgetDeleted => cases hb

/-- What one call does leaves the others their accounts. -/
theorem Account.append {j : Nat} (h : a.Account past j) (hne : j ≠ i) (act : Option (FileAct σ)) :
    a.Account (past ++ act.toList.map (FileDeed.mk i)) j := by
  have hnone : (∀ d ∈ past, d.caller ≠ j) →
      ∀ d ∈ past ++ act.toList.map (FileDeed.mk i), d.caller ≠ j := by
    intro hpast d hd
    rcases List.mem_append.1 hd with hd | hd
    · exact hpast d hd
    · obtain ⟨e, -, rfl⟩ := List.mem_map.1 hd
      exact hne.symm
  cases a with
  | content | upload | deletion => exact hnone h
  | fetching key => exact List.mem_append_left _ h
  | fetched key r =>
    cases r with
    | error e => trivial
    | ok d =>
      obtain ⟨t, ht⟩ := h
      exact ⟨t, List.mem_append_left _ ht⟩
  | uploaded r =>
    cases r with
    | error e => trivial
    | ok file => exact List.mem_append_left _ h
  | deleted key r =>
    cases r with
    | error e => trivial
    | ok u => exact List.mem_append_left _ h
  | view | looking | looked => trivial

/-- What is cached after a call has done something was written then, or was cached before. -/
theorem Change.get (h : Change v c t a c' next act) (hc : c.Distinct) :
    c'.Distinct ∧ ∀ key b, c'.get? key = some b →
      act = some (.stored key b) ∨ c.get? key = some b ∧ ∀ e ∈ act, e.writes key = false := by
  cases h with
  | ask | serve | upload | delete | idle =>
    exact ⟨hc, fun key b hb ↦ .inr ⟨hb, by simp [FileAct.writes]⟩⟩
  | take now h =>
    refine ⟨hc.modify _, fun key b hb ↦ .inr ⟨FrequencyCache.get_hit ▸ hb, ?_⟩⟩
    simp [FileAct.writes]
  | store key' a' now =>
    refine ⟨hc.put a', fun key b hb ↦ ?_⟩
    rcases FrequencyCache.get_of_put hc hb with ⟨rfl, rfl⟩ | ⟨hkey, hb⟩
    · exact .inl rfl
    · exact .inr ⟨hb, by simp [FileAct.writes, hkey.symm]⟩
  | forgetUploaded file =>
    refine ⟨hc.remove _, fun key b hb ↦ .inr ?_⟩
    obtain ⟨hkey, hb⟩ := FrequencyCache.get_of_remove hc hb
    exact ⟨hb, by simp [FileAct.writes, hkey.symm]⟩
  | forgetDeleted key' u =>
    refine ⟨hc.remove _, fun key b hb ↦ .inr ?_⟩
    obtain ⟨hkey, hb⟩ := FrequencyCache.get_of_remove hc hb
    exact ⟨hb, by simp [FileAct.writes, hkey.symm]⟩

end Access

/-- A session and whoever keeps the files, with the calls about files and what was done. -/
structure FileCourse (σ : Type) where
  session : Session
  store : σ
  /-- In the order they were made; none for a call that has returned. -/
  calls : List (Option Access)
  past : List (FileDeed σ)

namespace FileCourse

/-- A session for a project, on which nothing was called for. -/
def start (settings : Settings) (p : Project) (clock : Moment) (t : σ) : FileCourse σ :=
  ⟨.start settings p clock, t, [], []⟩

/-- The call of a number, if it has not returned. -/
def call? (w : FileCourse σ) (i : Nat) : Option Access := callAt? w.calls i

/-- A call has got to another place, or has returned, and did something on the way. -/
def proceed (w : FileCourse σ) (i : Nat) (s : Session) (t : σ) (next : Option Access)
    (act : Option (FileAct σ)) : FileCourse σ :=
  ⟨s, t, w.calls.set i next, w.past ++ act.toList.map (FileDeed.mk i)⟩

/-- A turn of a call: where it gets to, and what it does on the way. -/
def takeTurn (w : FileCourse σ) (i : Nat) (a : Access) : FileCourse σ :=
  match a.turn w.session with
  | .waits => w
  | .moves s b => w.proceed i s w.store (some b) (a.fileAct? w.session)
  | .ends s _ => w.proceed i s w.store none (a.fileAct? w.session)

/-- The service comes to what a call has asked for, in some weather. -/
def resume (v : FileService ω σ) (w : FileCourse σ) (i : Nat) (weather : ω) (a : Access) :
    FileCourse σ :=
  match a.question? with
  | none => w
  | some q =>
    let (r, t) := v.answer weather w.store q.request
    w.proceed i w.session t (some (q.resume r)) (FileAct.ofAnswer w.store q.request r)

/-- Does something to a call that has not returned. -/
def onCall (w : FileCourse σ) (i : Nat) (f : Access → FileCourse σ) : FileCourse σ :=
  match w.call? i with
  | none => w
  | some a => f a

/-- What a move makes of a course. -/
def step (v : FileService ω σ) (w : FileCourse σ) : FileMove ω σ → FileCourse σ
  | .call c => { w with calls := w.calls ++ [c.access?] }
  | .turn i => w.onCall i (w.takeTurn i)
  | .answer i weather => w.onCall i (w.resume v i weather)
  | .drop i => w.onCall i fun _ ↦ w.proceed i w.session w.store none none
  | .elsewhere t => { w with store := t }
  | .wait ms => { w with session := w.session.onDesk fun d ↦ d.advance ms }

/-- What moves make of a course, in order. -/
def run (v : FileService ω σ) (w : FileCourse σ) (ms : List (FileMove ω σ)) : FileCourse σ :=
  ms.foldl (step v) w

variable {v : FileService ω σ} {w w' : FileCourse σ} {i : Nat}

/-! ### One step -/

/-- What one step does. -/
inductive Step (v : FileService ω σ) (w w' : FileCourse σ) : Prop
  | launch (c : FileCall) (files : w'.session.files = w.session.files)
      (calls : w'.calls = w.calls ++ [c.access?]) (past : w'.past = w.past)
  | change (i : Nat) (a : Access) (next : Option Access) (act : Option (FileAct σ))
      (hi : w.call? i = some a)
      (change : a.Change v w.session.files w.store w'.session.files next act)
      (calls : w'.calls = w.calls.set i next)
      (past : w'.past = w.past ++ act.toList.map (FileDeed.mk i))
  | quiet (files : w'.session.files = w.session.files) (calls : w'.calls = w.calls)
      (past : w'.past = w.past)

theorem Step.refl (w : FileCourse σ) : Step v w w := .quiet rfl rfl rfl

/-- A turn of a call is a step. -/
theorem step_of_takeTurn {a : Access} (hi : w.call? i = some a) : Step v w (w.takeTurn i a) := by
  unfold takeTurn
  cases hturn : a.turn w.session with
  | waits => exact .refl w
  | moves s b => exact .change i a _ _ hi (Access.change_of_moves hturn) rfl rfl
  | ends s r => exact .change i a _ _ hi (Access.change_of_ends hturn) rfl rfl

/-- An answer to a call is a step, and what it serves is what is held. -/
theorem step_of_resume (hv : v.Truthful) {a : Access} (hi : w.call? i = some a) (weather : ω) :
    Step v w (w.resume v i weather a) := by
  unfold resume
  cases hq : a.question? with
  | none => exact .refl w
  | some q => exact .change i a _ _ hi (Access.change_of_answer hv hq weather) rfl rfl

/-- A step of a call that is there is a step. -/
theorem step_of_onCall {f : Access → FileCourse σ} (h : ∀ a, w.call? i = some a → Step v w (f a)) :
    Step v w (w.onCall i f) := by
  unfold onCall
  cases hi : w.call? i with
  | none => exact .refl w
  | some a => exact h a hi

/-- Every move is a step: a call is made, a call does something, or nothing happens to any. -/
theorem step_cases (hv : v.Truthful) (w : FileCourse σ) (m : FileMove ω σ) :
    Step v w (w.step v m) := by
  cases m with
  | call c => exact .launch c rfl rfl rfl
  | turn i => exact step_of_onCall fun a ↦ step_of_takeTurn
  | answer i weather => exact step_of_onCall fun a hi ↦ step_of_resume hv hi weather
  | drop i => exact step_of_onCall fun a hi ↦ .change i a none none hi (.idle_none a) rfl rfl
  | elsewhere | wait => exact .quiet rfl rfl rfl

/-! ### What the past says, at any time -/

/-- What the past says about the calls in flight and about what is cached. -/
structure Coherent (v : FileService ω σ) (w : FileCourse σ) : Prop where
  distinct : w.session.files.Distinct
  /-- What is cached was cached by the read that was the last to write. -/
  cached : ∀ key c, w.session.files.get? key = some c → ∃ i, LastStored w.past key i c
  follows : ∀ before d after, w.past = before ++ d :: after → d.act.Follows v before d.caller
  account : ∀ i a, w.call? i = some a → a.Account w.past i
  /-- Nothing was done by a call that was not made. -/
  made : ∀ d ∈ w.past, d.caller < w.calls.length

/-- Of a session on which nothing was called for the past says nothing. -/
theorem coherent_start (v : FileService ω σ) (settings : Settings) (p : Project) (clock : Moment)
    (t : σ) : Coherent v (start settings p clock t) :=
  ⟨FrequencyCache.distinct_ofCapacity _ _, nofun, by simp [start], by simp [start, call?, callAt?],
    nofun⟩

namespace Coherent

/-- A call that is made has done nothing yet. -/
theorem launch (hw : Coherent v w) {c : FileCall} (hfiles : w'.session.files = w.session.files)
    (hcalls : w'.calls = w.calls ++ [c.access?]) (hpast : w'.past = w.past) : Coherent v w' := by
  refine ⟨hfiles ▸ hw.distinct, hfiles ▸ hpast ▸ hw.cached, hpast ▸ hw.follows, fun i a hi ↦ ?_,
    fun d hd ↦ ?_⟩
  · rw [call?, hcalls, callAt?_concat, update_eq_some_iff] at hi
    rw [hpast]
    rcases hi with ⟨rfl, hc⟩ | ⟨-, hi⟩
    · have hnone : ∀ d ∈ w.past, d.caller ≠ w.calls.length :=
        fun d hd ↦ Nat.ne_of_lt (hw.made d hd)
      cases c with
      | list => cases hc
      | content | upload | delete =>
        cases hc
        exact hnone
    · exact hw.account i a hi
  · rw [hpast] at hd
    have hmade := hw.made d hd
    rw [hcalls, List.length_append]
    omega

/-- **One call does something.** -/
theorem change (hw : Coherent v w) {a : Access} {next : Option Access} {act : Option (FileAct σ)}
    (hi : w.call? i = some a)
    (hchange : a.Change v w.session.files w.store w'.session.files next act)
    (hcalls : w'.calls = w.calls.set i next)
    (hpast : w'.past = w.past ++ act.toList.map (FileDeed.mk i)) : Coherent v w' := by
  obtain ⟨hdistinct, hget⟩ := hchange.get hw.distinct
  have hfollows := hchange.follows (hw.account i a hi) hw.cached
  refine ⟨hdistinct, fun key c hc ↦ ?_, ?_, fun j b hj ↦ ?_, fun d hd ↦ ?_⟩
  · rw [hpast]
    -- what is cached was stored just now, or before and not written over since
    rcases hget key c hc with rfl | ⟨hc, hwrites⟩
    · exact ⟨i, w.past, [], rfl, nofun⟩
    · obtain ⟨j, hj⟩ := hw.cached key c hc
      refine ⟨j, hj.append fun d hd ↦ ?_⟩
      obtain ⟨e, he, rfl⟩ := List.mem_map.1 hd
      exact hwrites e (Option.mem_toList.1 he)
  · rw [hpast]
    cases act with
    | none => simpa using hw.follows
    | some e => exact forall_moment_concat hw.follows (hfollows e rfl)
  · rw [call?, hcalls, callAt?_set hi, update_eq_some_iff] at hj
    rw [hpast]
    rcases hj with ⟨rfl, hb⟩ | ⟨hne, hj⟩
    · exact hchange.account b hb
    · exact (hw.account j b hj).append hne act
  · rw [hcalls, List.length_set]
    rw [hpast, List.mem_append] at hd
    rcases hd with hd | hd
    · exact hw.made d hd
    · obtain ⟨e, -, rfl⟩ := List.mem_map.1 hd
      exact lt_length_of_callAt? hi

/-- A step keeps the past in accord with the calls and with the cache. -/
theorem step (hw : Coherent v w) (h : Step v w w') : Coherent v w' := by
  cases h with
  | launch c hfiles hcalls hpast => exact hw.launch hfiles hcalls hpast
  | change i a next act hi hchange hcalls hpast => exact hw.change hi hchange hcalls hpast
  | quiet hfiles hcalls hpast =>
    have hsame : w'.call? = w.call? := by
      funext i
      rw [call?, hcalls, call?]
    exact ⟨hfiles ▸ hw.distinct, hfiles ▸ hpast ▸ hw.cached, hpast ▸ hw.follows,
      hsame ▸ hpast ▸ hw.account, hpast ▸ hcalls ▸ hw.made⟩

/-- **What the past says holds at any time.** -/
theorem run (hv : v.Truthful) (hw : Coherent v w) (ms : List (FileMove ω σ)) :
    Coherent v (w.run v ms) := by
  induction ms generalizing w with
  | nil => exact hw
  | cons m rest ih => exact ih (hw.step (step_cases hv w m))

end Coherent

/-- So the past is in accord after any moves. -/
theorem coherent_run (hv : v.Truthful) (settings : Settings) (p : Project) (clock : Moment) (t : σ)
    (ms : List (FileMove ω σ)) : Coherent v ((start settings p clock t).run v ms) :=
  (coherent_start v settings p clock t).run hv ms

end FileCourse

end GraphSession
