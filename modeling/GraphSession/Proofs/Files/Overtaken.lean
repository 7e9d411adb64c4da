import GraphSession.Proofs.Files.Course

/-!
# Reads that are overtaken

Once an upload or a delete has returned, what was cached under its key is dropped, and a read that
finds nothing asks the service, which has carried out the upload or the delete by then. But there
may be a read that the service answered before it came to the upload or the delete, and that takes
its next turn only after the cached content was dropped: it is overtaken, and caches the content
that was held before. Reads that begin later return that content until somebody writes or drops it
(`returnedOld_iff`).

**There is no other way.** What is cached was written by the read that was the last to write
(`Coherent.cached`), so it is old only if that read was served before the change; and it was written
after the drop, or it would have been dropped.
-/

namespace GraphSession

namespace FileCourse

variable {ω σ : Type} {v : FileService ω σ} {w w' : FileCourse σ} {key : String} {c : FileContent}
  {i j x : Nat}

/-- A call has returned a content that the service served to another, or to itself: it has cached
it, or has found cached what the other had cached. -/
def ReturnedFrom (w : FileCourse σ) (key : String) (c : FileContent) (j i : Nat) : Prop :=
  (i = j ∧ ⟨j, .stored key c⟩ ∈ w.past) ∨
    ∃ before after, w.past = before ++ ⟨j, .took key c⟩ :: after ∧ LastStored before key i c

/-- A call has returned what the service held under a key before it carried out an upload or a
delete. -/
def ReturnedOld (v : FileService ω σ) (w : FileCourse σ) (key : String) (j x : Nat) : Prop :=
  ∃ c i t before after, w.ReturnedFrom key c j i ∧ w.past = before ++ ⟨x, .changed key⟩ :: after ∧
    ⟨i, .served key c t⟩ ∈ before ∧ v.held t key = some c

/-- A read that was served before the service carried out an upload or a delete has cached what it
was served after that had returned, and nobody has written or dropped it since. -/
def Overtaken (w : FileCourse σ) (key : String) (x : Nat) : Prop :=
  ∃ i c t before between since,
    w.past = before ++ ⟨x, .changed key⟩ :: (between ++ ⟨i, .stored key c⟩ :: since) ∧
      ⟨i, .served key c t⟩ ∈ before ∧ ⟨x, .forgot key⟩ ∈ between ∧
      ∀ d ∈ since, d.act.writes key = false

/-! ### Where contents come from -/

/-- What has been done has been accounted for when it was done. -/
theorem Coherent.follows_of_mem (hw : Coherent v w) {d : FileDeed σ} (hd : d ∈ w.past) :
    ∃ before after, w.past = before ++ d :: after ∧ d.act.Follows v before d.caller := by
  obtain ⟨before, after, hpast⟩ := List.append_of_mem hd
  exact ⟨before, after, hpast, hw.follows before d after hpast⟩

/-- A content that is cached was served to whoever cached it. -/
theorem Coherent.served_of_stored (hw : Coherent v w) (h : ⟨i, .stored key c⟩ ∈ w.past) :
    ∃ t, ⟨i, .served key c t⟩ ∈ w.past ∧ v.held t key = some c := by
  obtain ⟨before, after, hpast, t, ht⟩ := hw.follows_of_mem h
  have hserved : ⟨i, .served key c t⟩ ∈ w.past := hpast ▸ List.mem_append_left _ ht
  obtain ⟨-, -, -, -, hheld⟩ := hw.follows_of_mem hserved
  exact ⟨t, hserved, hheld⟩

/-- Whoever caches a content has asked for it before. -/
theorem Coherent.asked_of_stored (hw : Coherent v w) (h : ⟨i, .stored key c⟩ ∈ w.past) :
    ⟨i, .asked key⟩ ∈ w.past := by
  obtain ⟨t, hserved, -⟩ := hw.served_of_stored h
  obtain ⟨before, after, hpast, hasked, -⟩ := hw.follows_of_mem hserved
  exact hpast ▸ List.mem_append_left _ hasked

/-! ### What a call does only once -/

/-- Whether an act is the first of its call. -/
def isFirst : FileAct σ → Bool
  | .took _ _ | .asked _ | .changed _ => true
  | _ => false

/-- Before the first act of a call there is none of that call. -/
theorem Coherent.caller_ne (hw : Coherent v w) {before after : List (FileDeed σ)} {a : FileAct σ}
    (hpast : w.past = before ++ ⟨j, a⟩ :: after) (ha : isFirst a = true) :
    ∀ d ∈ before, d.caller ≠ j := by
  have hfollows := hw.follows _ _ _ hpast
  cases a with
  | took => exact hfollows.1
  | asked | changed => exact hfollows
  | served | stored | forgot => cases ha

/-- **A call has one first act,** at one moment. -/
theorem Coherent.first_unique (hw : Coherent v w) {before after before' after' : List (FileDeed σ)}
    {a a' : FileAct σ} (hpast : w.past = before ++ ⟨j, a⟩ :: after) (ha : isFirst a = true)
    (hpast' : w.past = before' ++ ⟨j, a'⟩ :: after') (ha' : isFirst a' = true) :
    before = before' ∧ a = a' ∧ after = after' := by
  rcases moment_cases (hpast.symm.trans hpast') with ⟨hbefore, hdeed, hafter⟩ | ⟨hd, -⟩ | ⟨hd, -⟩
  · exact ⟨hbefore, (FileDeed.mk.inj hdeed).2, hafter⟩
  · exact absurd rfl (hw.caller_ne hpast' ha' _ hd)
  · exact absurd rfl (hw.caller_ne hpast ha _ hd)

/-- What a call drops from the cache, the service has changed before. -/
theorem Coherent.changed_of_forgot (hw : Coherent v w) {before after : List (FileDeed σ)}
    (hpast : w.past = before ++ ⟨x, .forgot key⟩ :: after) :
    ∃ b a, before = b ++ ⟨x, .changed key⟩ :: a :=
  List.append_of_mem (hw.follows _ _ _ hpast)

/-! ### The past of a run -/

/-- A move only adds to the past. -/
theorem past_step (hv : v.Truthful) (w : FileCourse σ) (m : FileMove ω σ) :
    ∃ more, (w.step v m).past = w.past ++ more := by
  cases step_cases hv w m with
  | launch c files calls past => exact ⟨[], by simp [past]⟩
  | change i a next act hi change calls past => exact ⟨_, past⟩
  | quiet files calls past => exact ⟨[], by simp [past]⟩

/-- Moves only add to the past. -/
theorem past_run (hv : v.Truthful) (w : FileCourse σ) (ms : List (FileMove ω σ)) :
    ∃ more, (w.run v ms).past = w.past ++ more := by
  induction ms generalizing w with
  | nil => exact ⟨[], by simp [run]⟩
  | cons m rest ih =>
    obtain ⟨more, hmore⟩ := past_step hv w m
    obtain ⟨more', hmore'⟩ := ih (w.step v m)
    exact ⟨more ++ more', by rw [← List.append_assoc, ← hmore]; exact hmore'⟩

/-- A read that begins on its turn, if the content is cached. -/
theorem past_turn_of_some (hj : w.call? j = some (.content key))
    (hcached : w.session.files.get? key = some c) :
    (w.step v (.turn j)).past = w.past ++ [⟨j, .took key c⟩] := by
  simp only [step, onCall, hj, takeTurn, Access.turn, Access.turnContent, FrequencyCache.beginFetch,
    hcached, Access.fileAct?]
  rfl

/-- A read that begins on its turn, if the content is not cached. -/
theorem past_turn_of_none (hj : w.call? j = some (.content key))
    (hcached : w.session.files.get? key = none) :
    (w.step v (.turn j)).past = w.past ++ [⟨j, .asked key⟩] := by
  simp only [step, onCall, hj, takeTurn, Access.turn, Access.turnContent, FrequencyCache.beginFetch,
    hcached, Access.fileAct?]
  rfl

/-! ### Old contents -/

/-- A key is cached exactly if some content is. -/
theorem contains_eq_true : w.session.files.contains key = true ↔
    ∃ c, w.session.files.get? key = some c := by
  rw [FrequencyCache.contains, FrequencyCache.get?]
  cases w.session.files.entry? key <;> simp

/-- A read that asks the service after an upload or a delete has returned gets nothing old. -/
theorem not_returnedOld_of_asked (hw : Coherent v w) (hw' : Coherent v w')
    {more : List (FileDeed σ)} (hpast : w'.past = w.past ++ ⟨j, .asked key⟩ :: more)
    (hx : ⟨x, .forgot key⟩ ∈ w.past) (hj : ∀ d ∈ w.past, d.caller ≠ j) :
    ¬ w'.ReturnedOld v key j x := by
  rintro ⟨c, i, t, before, after, hfrom, hchange, hserved, -⟩
  rcases hfrom with ⟨rfl, -⟩ | ⟨b, a, htook, -⟩
  · -- the service came to the upload or the delete before the read began
    obtain ⟨b, a, hforgot⟩ := List.append_of_mem hx
    obtain ⟨b', a', rfl⟩ := hw.changed_of_forgot hforgot
    have hfirst : w'.past = b' ++ ⟨x, .changed key⟩ :: (a' ++ ⟨x, .forgot key⟩ :: a ++
        ⟨i, .asked key⟩ :: more) := by
      rw [hpast, hforgot]
      simp
    obtain ⟨rfl, -, -⟩ := hw'.first_unique hchange rfl hfirst rfl
    have hmem : ⟨i, .served key c t⟩ ∈ w.past := by
      rw [hforgot]
      exact List.mem_append_left _ (List.mem_append_left _ hserved)
    exact hj _ hmem rfl
  · obtain ⟨-, hact, -⟩ := hw'.first_unique htook rfl hpast rfl
    cases hact

/-- What a read returns that finds its content cached is old if the read that cached it was
overtaken, and only then. -/
theorem returnedOld_iff_of_took (hw : Coherent v w) (hw' : Coherent v w')
    {more : List (FileDeed σ)} (hpast : w'.past = w.past ++ ⟨j, .took key c⟩ :: more)
    (hx : ⟨x, .forgot key⟩ ∈ w.past) : w'.ReturnedOld v key j x ↔ w.Overtaken key x := by
  constructor
  · rintro ⟨d, i, t, before, after, hfrom, hchange, hserved, -⟩
    rcases hfrom with ⟨rfl, hstored⟩ | ⟨b, a, htook, hlast⟩
    · -- what was stored by the reader itself was not taken
      obtain ⟨b, a, hasked⟩ := List.append_of_mem (hw'.asked_of_stored hstored)
      obtain ⟨-, hact, -⟩ := hw'.first_unique hasked rfl hpast rfl
      cases hact
    · obtain ⟨rfl, hact, -⟩ := hw'.first_unique htook rfl hpast rfl
      obtain ⟨-, rfl⟩ := FileAct.took.inj hact
      obtain ⟨b, since, hsplit, hsince⟩ := hlast
      -- the old bytes were stored after the other call had forgotten them
      have hforgot : ⟨x, .forgot key⟩ ∈ b := by
        rw [hsplit] at hx
        rcases List.mem_append.1 hx with hb | hx
        · exact hb
        · rcases List.mem_cons.1 hx with hdeed | hx
          · cases hdeed
          · simpa [FileAct.writes] using hsince _ hx
      obtain ⟨p, q, rfl⟩ := List.append_of_mem hforgot
      obtain ⟨p, r, rfl⟩ := hw.changed_of_forgot (hsplit.trans (List.append_assoc _ _ _))
      -- so the change is the one that came with the forgetting
      have hfirst : w'.past = p ++ ⟨x, .changed key⟩ :: (r ++ ⟨x, .forgot key⟩ :: q ++
          ⟨i, .stored key d⟩ :: since ++ ⟨j, .took key d⟩ :: more) := by
        rw [hpast, hsplit]
        simp
      obtain ⟨rfl, -, -⟩ := hw'.first_unique hchange rfl hfirst rfl
      exact ⟨i, d, t, before, r ++ ⟨x, .forgot key⟩ :: q, since, by rw [hsplit]; simp, hserved,
        by simp, hsince⟩
  · rintro ⟨i, d, t, before, between, since, hsplit, hserved, -, hsince⟩
    -- the bytes that were taken are the last ones stored
    have hlast : LastStored w.past key i d :=
      ⟨before ++ ⟨x, .changed key⟩ :: between, since, by rw [hsplit]; simp, hsince⟩
    obtain ⟨-, k, hk⟩ := hw'.follows _ _ _ hpast
    obtain ⟨rfl, rfl⟩ := hlast.unique hk
    have hmem : ⟨i, .served key d t⟩ ∈ w.past := hsplit ▸ List.mem_append_left _ hserved
    obtain ⟨-, -, -, -, hheld⟩ := hw.follows_of_mem hmem
    exact ⟨d, i, t, before, _, .inr ⟨w.past, more, hpast, hlast⟩,
      by rw [hpast, hsplit, List.append_assoc]; rfl, hserved, hheld⟩

variable (settings : Settings) (p : Project) (clock : Moment) (t : σ)
  (earlier later : List (FileMove ω σ))

/-- **When a read returns old bytes.** A read that begins after an upload or a delete of its key has
returned returns what the service held before exactly if, at that time, the key is cached and the
read that cached it was overtaken: it was served before the upload or the delete, and took its turn
after. -/
theorem returnedOld_iff (hv : v.Truthful)
    (hx : ⟨x, .forgot key⟩ ∈ ((start settings p clock t).run v earlier).past)
    (hj : ((start settings p clock t).run v earlier).call? j = some (.content key)) :
    ((((start settings p clock t).run v earlier).step v (.turn j)).run v later).ReturnedOld v key j
      x ↔
      ((start settings p clock t).run v earlier).session.files.contains key = true ∧
        ((start settings p clock t).run v earlier).Overtaken key x := by
  have hw := coherent_run hv settings p clock t earlier
  have hw' := (hw.step (step_cases hv _ (.turn j))).run hv later
  obtain ⟨more, hmore⟩ := past_run hv (((start settings p clock t).run v earlier).step v (.turn j))
    later
  rw [contains_eq_true]
  cases hcached : ((start settings p clock t).run v earlier).session.files.get? key with
  | some c =>
    rw [past_turn_of_some hj hcached, List.append_assoc] at hmore
    rw [returnedOld_iff_of_took hw hw' hmore hx]
    simp
  | none =>
    rw [past_turn_of_none hj hcached, List.append_assoc] at hmore
    have hnot := not_returnedOld_of_asked hw hw' hmore hx (hw.account j _ hj)
    simp [hnot]

/-- A read of a file was served when the file was deleted, and takes its next turn after the delete
has returned. Another read is about to begin. -/
def overtakenRead : List (FileMove (Option Failure) Shelf) :=
  [.call (.content "a"), .turn 0, .answer 0 none, .call (.delete "a"), .answer 1 none, .turn 1,
    .turn 0, .call (.content "a")]

/-- A session on a shelf with one file. -/
def oneFile : FileCourse Shelf :=
  start .default ⟨0, "", 0, default, none, .empty⟩ default [("a", .bytes [1])]

theorem past_overtakenRead : (oneFile.run Shelf.service overtakenRead).past =
    [⟨0, .asked "a"⟩, ⟨0, .served "a" (.bytes [1]) [("a", .bytes [1])]⟩, ⟨1, .changed "a"⟩,
      ⟨1, .forgot "a"⟩, ⟨0, .stored "a" (.bytes [1])⟩] := rfl

/-- The read was served before the delete, and has cached after it. -/
theorem overtaken_overtakenRead : (oneFile.run Shelf.service overtakenRead).Overtaken "a" 1 := by
  rw [Overtaken, past_overtakenRead]
  exact ⟨0, .bytes [1], [("a", .bytes [1])], [⟨0, .asked "a"⟩, _], [_], [], rfl, by simp, by simp,
    nofun⟩

/-- The file is gone, and the read returns its content. -/
theorem returnedOld_overtakenRead :
    ((oneFile.run Shelf.service overtakenRead).step Shelf.service (.turn 2)).store = [] ∧
      ((oneFile.run Shelf.service overtakenRead).step Shelf.service (.turn 2)).ReturnedOld
        Shelf.service
        "a" 2 1 := by
  have hx : ⟨1, .forgot "a"⟩ ∈ (oneFile.run Shelf.service overtakenRead).past := by
    rw [past_overtakenRead]
    simp
  have hj : (oneFile.run Shelf.service overtakenRead).call? 2 = some (.content "a") := rfl
  exact ⟨rfl, (returnedOld_iff _ _ _ _ overtakenRead [] Shelf.lawful_service.truthful hx hj).2
    ⟨rfl, overtaken_overtakenRead⟩⟩

end FileCourse

end GraphSession
