import GraphSession.Proofs.Cache.Entries
import GraphSession.Proofs.Files.Service

/-!
# One call after the other

As long as calls about files do not overlap, the cache cannot be told from the service behind it
(`FileService.same_results`): calls that the service would have answered with success come to what
it would have answered, and what is cached is what the service holds at that time. Only a failure
can be told, since what is cached is read also when the service would fail.

**What carries it.** While a call is alone nothing happens to the files between its request and its
return. So what a read writes into the cache is still held then, and what an upload or a delete has
changed is dropped before anybody reads it (`Tells`). Which entry has to go for a new one does not
matter: an entry that is gone tells nothing wrong.
-/

namespace GraphSession

variable {ω σ : Type}

/-! ### A call that is alone -/

namespace Access

/-- A call that is alone: what it asks is answered `ms` later, and it takes its next turn then. -/
def alone? (v : FileService ω σ) (w : ω) (ms : Nat) (s : Session) (t : σ) (a : Access) :
    Option (AccessResult × Session × σ) :=
  match a.turn s with
  | .ends s r => some (r, s, t)
  | .moves s a => answered? s a
  | .waits => answered? s a
where
  answered? (s : Session) (a : Access) : Option (AccessResult × Session × σ) :=
    match a.question? with
    | none => none
    | some q =>
      match (q.resume (v.answer w t q.request).1).turn (s.onDesk fun d ↦ d.advance ms) with
      | .ends s r => some (r, s, (v.answer w t q.request).2)
      | _ => none

variable {v : FileService ω σ} {w : ω} {ms : Nat} {s : Session} {t : σ} {key : String}

/-- A read that finds its content cached asks nobody. -/
theorem alone_content_of_some {c : FileContent} (h : s.files.get? key = some c) :
    alone? v w ms s t (content key) =
      some (.content (.ok c), { s with files := s.files.hit key s.desk.now }, t) := by
  simp only [alone?, turn, turnContent, FrequencyCache.beginFetch, h]

/-- A read that does not find its content cached asks for it. -/
theorem alone_content_of_none (h : s.files.get? key = none) :
    alone? v w ms s t (content key) =
      some (.content (v.answer w t (.content key)).1,
        { s.onDesk fun d ↦ d.advance ms with
          files := s.files.endFetch key (v.answer w t (.content key)).1 (s.desk.now + ms) },
        (v.answer w t (.content key)).2) := by
  simp only [alone?, turn, turnContent, FrequencyCache.beginFetch, h]
  rfl

end Access

namespace FileCall

/-- A call that is alone. A list is never cached. -/
def alone? (v : FileService ω σ) (w : ω) (ms : Nat) (s : Session) (t : σ) :
    FileCall → Option (FileResult × Session × σ)
  | content key => access? (.content key)
  | list =>
    some (.listed (v.answer w t .files).1, s.onDesk fun d ↦ d.advance ms, (v.answer w t .files).2)
  | upload projectId nodeId filename bytes => access? (.upload projectId nodeId filename bytes)
  | delete key => access? (.deletion key)
where
  access? (a : Access) : Option (FileResult × Session × σ) :=
    (a.alone? v w ms s t).map fun out ↦ (.access out.1, out.2)

end FileCall

/-- What is cached is what the service holds. -/
structure Tells (v : FileService ω σ) (s : Session) (t : σ) : Prop where
  distinct : s.files.Distinct
  held : ∀ key c, s.files.get? key = some c → v.held t key = some c

namespace Tells

variable {v : FileService ω σ} {w : ω} {ms : Nat} {s : Session} {t t' : σ} {key : String}

/-- Time that goes by changes no content. -/
theorem advance (h : Tells v s t) (ms : Nat) : Tells v (s.onDesk fun d ↦ d.advance ms) t :=
  ⟨h.distinct, h.held⟩

/-- A use changes no content. -/
theorem hit (h : Tells v s t) (key : String) (now : Nat) :
    Tells v { s with files := s.files.hit key now } t :=
  ⟨h.distinct.modify _, fun k c hc ↦ h.held k c (FrequencyCache.get_hit ▸ hc)⟩

/-- A content may be cached that is held. -/
theorem put (h : Tells v s t) {c : FileContent} (hc : v.held t key = some c) (now : Nat) :
    Tells v { s with files := s.files.put key c now } t := by
  refine ⟨h.distinct.put c, fun k a ha ↦ ?_⟩
  rcases FrequencyCache.get_of_put h.distinct ha with ⟨rfl, rfl⟩ | ⟨-, ha⟩
  · exact hc
  · exact h.held k a ha

/-- Once the content of a key is dropped, the service may have changed it. -/
theorem remove (h : Tells v s t) (hother : ∀ k, k ≠ key → v.held t' k = v.held t k) :
    Tells v { s with files := s.files.remove key } t' := by
  refine ⟨h.distinct.remove key, fun k a ha ↦ ?_⟩
  obtain ⟨hk, ha⟩ := FrequencyCache.get_of_remove h.distinct ha
  rw [hother k hk]
  exact h.held k a ha

end Tells

/-- How a call that is alone comes out, next to what the service would have said. -/
structure FileCall.Agrees (v : FileService ω σ) (w : ω) (ms : Nat) (s : Session) (t : σ)
    (c : FileCall) (r : FileResult) (s' : Session) : Prop where
  /-- It returns, and the service is where it would have been. -/
  returns : c.alone? v w ms s t = some (r, s', (v.answer w t c.request).2)
  /-- It succeeds with what the service would have said, if that is a success. -/
  agrees : (c.resultOf (v.answer w t c.request).1).isOk = true →
    r = c.resultOf (v.answer w t c.request).1
  tells : Tells v s' (v.answer w t c.request).2

namespace FileCall

variable {v : FileService ω σ} {w : ω} {ms : Nat} {s : Session} {t : σ}

/-- A request that only reads leaves the service where it is. -/
theorem answer_of_content (hv : v.Lawful) (w : ω) (t : σ) (key : String) :
    (v.answer w t (.content key)).2 = t := by
  cases h : v.answer w t (.content key) with
  | mk r t' =>
    cases r with
    | error e => exact hv.failed h
    | ok c => exact (hv.read h).2

/-- Listing changes nothing in the store. -/
theorem answer_of_list (hv : v.Lawful) (w : ω) (t : σ) : (v.answer w t .files).2 = t := by
  cases h : v.answer w t .files with
  | mk r t' =>
    cases r with
    | error e => exact hv.failed h
    | ok fs => exact hv.listed h

/-- A content that is cached is what the store holds, and otherwise the store is asked. -/
theorem content_agrees (hv : v.Lawful) (h : Tells v s t) (w : ω) (ms : Nat) (key : String) :
    ∃ r s', Agrees v w ms s t (.content key) r s' := by
  have hstate := answer_of_content hv w t key
  cases hcached : s.files.get? key with
  | some c =>
    refine ⟨.access (.content (.ok c)), { s with files := s.files.hit key s.desk.now }, ?_, ?_, ?_⟩
    · -- nothing is asked of the service
      simp only [alone?, alone?.access?, Access.alone_content_of_some hcached, request, hstate]
      rfl
    · -- the service can only say what it holds
      intro hok
      simp only [request, resultOf] at hok ⊢
      cases hanswer : v.answer w t (.content key) with
      | mk r t' =>
        rw [hanswer] at hok
        cases r with
        | error e => cases hok
        | ok c' =>
          have hheld := h.held key c hcached
          rw [(hv.read hanswer).1] at hheld
          rw [Option.some.inj hheld]
    · rw [request, hstate]
      exact h.hit key _
  | none =>
    refine ⟨.access (.content (v.answer w t (.content key)).1),
      { s.onDesk fun d ↦ d.advance ms with
        files := s.files.endFetch key (v.answer w t (.content key)).1 (s.desk.now + ms) },
      ?_, fun _ ↦ rfl, ?_⟩
    · -- the service is asked, and the time it takes passes
      simp only [alone?, alone?.access?, Access.alone_content_of_none hcached, request]
      rfl
    · rw [request, hstate]
      cases hanswer : v.answer w t (.content key) with
      | mk r t' =>
        cases r with
        | error e => exact h.advance ms
        | ok c => exact (h.advance ms).put (hv.read hanswer).1 _

/-- A list is always asked for. -/
theorem list_agrees (hv : v.Lawful) (h : Tells v s t) (w : ω) (ms : Nat) :
    ∃ r s', Agrees v w ms s t .list r s' := by
  refine ⟨_, _, rfl, fun _ ↦ rfl, ?_⟩
  rw [request, answer_of_list hv w t]
  exact h.advance ms

/-- An upload asks the store, and then nothing is cached under the new key. -/
theorem upload_agrees (hv : v.Lawful) (h : Tells v s t) (w : ω) (ms : Nat) (projectId : Int)
    (nodeId filename : String) (bytes : List UInt8) :
    ∃ r s', Agrees v w ms s t (.upload projectId nodeId filename bytes) r s' := by
  refine ⟨_, _, rfl, fun _ ↦ rfl, ?_⟩
  rw [request]
  cases hanswer : v.answer w t (.upload projectId nodeId filename bytes) with
  | mk r t' =>
    cases r with
    | error e => exact hv.failed hanswer ▸ h.advance ms
    | ok file => exact (h.advance ms).remove (hv.uploaded hanswer)

/-- A delete asks the store, and then nothing is cached under its key. -/
theorem delete_agrees (hv : v.Lawful) (h : Tells v s t) (w : ω) (ms : Nat) (key : String) :
    ∃ r s', Agrees v w ms s t (.delete key) r s' := by
  refine ⟨_, _, rfl, fun _ ↦ rfl, ?_⟩
  rw [request]
  cases hanswer : v.answer w t (.deletion key) with
  | mk r t' =>
    cases r with
    | error e => exact hv.failed hanswer ▸ h.advance ms
    | ok u => exact (h.advance ms).remove (hv.deleted hanswer)

/-- **A call that is alone comes out as if there were no cache.** -/
theorem agrees (hv : v.Lawful) (h : Tells v s t) (w : ω) (ms : Nat) (c : FileCall) :
    ∃ r s', c.Agrees v w ms s t r s' := by
  cases c with
  | content key => exact content_agrees hv h w ms key
  | list => exact list_agrees hv h w ms
  | upload projectId nodeId filename bytes =>
    exact upload_agrees hv h w ms projectId nodeId filename bytes
  | delete key => exact delete_agrees hv h w ms key

end FileCall

/-! ### One call after the other -/

/-- A call, with the weather at which it is answered. -/
structure FileStep (ω : Type) where
  /-- How long after the call before. -/
  pause : Nat
  call : FileCall
  weather : ω
  /-- How long the service takes. -/
  delay : Nat

namespace FileService

/-- What calls come to that the service answers itself, and where it is then. -/
def direct (v : FileService ω σ) (t : σ) : List (FileStep ω) → List FileResult × σ
  | [] => ([], t)
  | c :: rest =>
    let (r, t) := v.answer c.weather t c.call.request
    let (rs, t) := v.direct t rest
    (c.call.resultOf r :: rs, t)

/-- What calls come to that go through the cache, one after the other. -/
def cached? (v : FileService ω σ) (s : Session) (t : σ) :
    List (FileStep ω) → Option (List FileResult × Session × σ)
  | [] => some ([], s, t)
  | c :: rest =>
    match c.call.alone? v c.weather c.delay (s.onDesk fun d ↦ d.advance c.pause) t with
    | none => none
    | some (r, s, t) => (v.cached? s t rest).map fun out ↦ (r :: out.1, out.2)

variable {v : FileService ω σ} {s : Session} {t : σ}

/-- How calls one after the other come out, next to what the service would have said. -/
structure SameResults (v : FileService ω σ) (s : Session) (t : σ) (cs : List (FileStep ω))
    (rs : List FileResult) (s' : Session) : Prop where
  /-- Every call returns, and the service is where it would have been. -/
  returns : v.cached? s t cs = some (rs, s', (v.direct t cs).2)
  /-- Whatever the service would have answered with success comes out the same. -/
  same : List.Forall₂ (fun d r ↦ d.isOk = true → r = d) (v.direct t cs).1 rs
  /-- Whatever is cached is what the service holds. -/
  held : ∀ key c, s'.files.get? key = some c → v.held (v.direct t cs).2 key = some c

/-- One call after the other agrees, whatever becomes of the store in between. -/
theorem sameResults_of_tells (hv : v.Lawful) (cs : List (FileStep ω)) (h : Tells v s t) :
    ∃ rs s', SameResults v s t cs rs s' := by
  induction cs generalizing s t with
  | nil => exact ⟨[], s, rfl, .nil, h.held⟩
  | cons c rest ih =>
    obtain ⟨r, s₁, hcall⟩ := c.call.agrees hv (h.advance c.pause) c.weather c.delay
    obtain ⟨rs, s', hrest⟩ := ih hcall.tells
    refine ⟨r :: rs, s', ?_, .cons hcall.agrees hrest.same, hrest.held⟩
    simp only [cached?, hcall.returns, hrest.returns]
    rfl

/-- **The cache cannot be told from the service,** but for failures: whatever calls are made one
after the other, in whatever weather, on a session of any capacity. -/
theorem same_results (hv : v.Lawful) (settings : Settings) (p : Project) (clock : Moment) (t : σ)
    (cs : List (FileStep ω)) : ∃ rs s', SameResults v (.start settings p clock) t cs rs s' :=
  sameResults_of_tells hv cs ⟨FrequencyCache.distinct_ofCapacity _ _, nofun⟩

/-- Calls on a rainy day: a content is read while the service fails, a delete fails, and names that
are read have to go for others. -/
def rainyDay : List (FileStep (Option Failure)) :=
  [⟨0, .content "a", none, 5⟩, ⟨1, .content "a", some (.api 500 ""), 5⟩, ⟨1, .list, none, 5⟩,
    ⟨1, .upload 1 "n" "x" [7], none, 5⟩, ⟨1, .content "n/x", none, 5⟩,
    ⟨1, .delete "n/x", some (.api 500 ""), 5⟩, ⟨1, .content "n/x", none, 5⟩,
    ⟨1, .upload 1 "n" "x" [8, 9], none, 5⟩, ⟨1, .content "n/x", none, 5⟩, ⟨1, .delete "a", none, 5⟩,
    ⟨1, .content "a", none, 5⟩]

/-- A session that caches one file. -/
def narrowSession : Session :=
  .start { Settings.default with fileCacheSize := 1 } ⟨0, "", 0, default, none, .empty⟩ default

/-- Calls in bad weather on a session that caches one file. -/
theorem same_results_rainyDay :
    Shelf.service.Lawful ∧
      ∃ rs s', SameResults Shelf.service narrowSession [("a", .bytes [1])] rainyDay rs s' :=
  ⟨Shelf.lawful_service, same_results Shelf.lawful_service _ _ _ _ _⟩

end FileService

end GraphSession
