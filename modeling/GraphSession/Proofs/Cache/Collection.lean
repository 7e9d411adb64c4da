import Mathlib.Algebra.Group.Nat.Defs
import GraphSession.Proofs.Cache.Course
import GraphSession.Session.Basic

/-!
# Collections

A collection of results keeps what some node refers to and what is not expired, and tells how many
views it has dropped (`ResultCache.collection_keeps_live`). It makes no difference whether the nodes
are those of the editor's graph or of a workflow that was made from it.

**Expiry is about uses, and about time.** An entry lives for so long since it came in, and the more
uses it has had the longer. So one with more uses does not expire before one with fewer
(`CacheEntry.isExpired_used_of_sublist`), and what is expired stays so as time goes by
(`CacheEntry.isExpired_of_le`). Only a use can help, and a name that is not used keeps its entry as
it is, or loses it (`FrequencyCache.entry_run_of_unused`).
-/

namespace GraphSession

universe u

variable {α ε : Type u}

/-! ### What is live -/

/-- Some node of the graph has the handle as an output. -/
def EditorGraph.RefersTo (g : EditorGraph) (h : DataHandle) : Prop :=
  ∃ n ∈ g.nodes, ∃ m, n.data.dataOut = some m ∧ h ∈ m.values

/-- A handle of a list of outputs is a value of one of them. -/
theorem mem_dataHandles {outputs : List (Option (OrderedMap DataHandle))} {h : DataHandle} :
    h ∈ dataHandles outputs ↔ ∃ m, some m ∈ outputs ∧ h ∈ m.values := by
  rw [dataHandles, NameSet.mem_ofList, List.mem_flatMap]
  constructor
  · rintro ⟨o, ho, hh⟩
    cases o with
    | none => cases hh
    | some m => exact ⟨m, ho, hh⟩
  · rintro ⟨m, hm, hh⟩
    exact ⟨some m, hm, hh⟩

/-- Asking a set for a name and membership are one. -/
theorem NameSet.contains_iff {s : NameSet} {h : String} : s.contains h = true ↔ h ∈ s :=
  List.contains_iff_mem

/-- The handles of a graph are those that some node refers to. -/
theorem EditorGraph.contains_dataHandles {g : EditorGraph} {h : DataHandle} :
    g.dataHandles.contains h = true ↔ g.RefersTo h := by
  rw [NameSet.contains_iff, EditorGraph.dataHandles, mem_dataHandles, RefersTo]
  constructor
  · rintro ⟨m, hm, hh⟩
    obtain ⟨n, hn, hout⟩ := List.mem_map.1 hm
    exact ⟨n, hn, m, hout, hh⟩
  · rintro ⟨n, hn, m, hout, hh⟩
    exact ⟨m, List.mem_map.2 ⟨n, hn, hout⟩, hh⟩

/-- The handles of a graph are those of a project that has its workflow. -/
theorem Project.dataHandles_of_toWorkflow {p : Project} {g : EditorGraph}
    (h : p.workflow = g.toWorkflow) :
    p.dataHandles = g.dataHandles := by
  rw [Project.dataHandles, h, EditorGraph.toWorkflow, List.map_map, EditorGraph.dataHandles]
  rfl

/-! ### What is expired -/

namespace CacheEntry

variable {e a b : CacheEntry α} {basic now later : Nat}

/-- When an entry is expired, in numbers. -/
theorem isExpired_iff : e.isExpired basic now = true ↔
    min (basic * min e.hits (2 ^ 32 - 1)) longest < now - e.createdAt :=
  decide_eq_true_iff

/-- What is expired does not come to life again. -/
theorem isExpired_of_le (h : e.isExpired basic now = true) (hle : now ≤ later) :
    e.isExpired basic later = true := by
  rw [isExpired_iff] at h ⊢
  omega

/-- Uses at the given times. -/
def used (e : CacheEntry α) (times : List Nat) : CacheEntry α := times.foldl touch e

/-- Uses do not change when the entry came in. -/
theorem createdAt_used (e : CacheEntry α) (times : List Nat) :
    (e.used times).createdAt = e.createdAt := by
  induction times generalizing e with
  | nil => rfl
  | cons t rest ih => exact ih (e.touch t)

/-- Each use counts, as far as uses are counted for the lifetime. -/
theorem min_hits_touch (e : CacheEntry α) (now : Nat) :
    min (e.touch now).hits (2 ^ 32 - 1) = min (min e.hits (2 ^ 32 - 1) + 1) (2 ^ 32 - 1) := by
  have htouch : (e.touch now).hits = min (e.hits + 1) (2 ^ 64 - 1) := rfl
  omega

/-- **More uses are more**, as far as they are counted. -/
theorem min_hits_used_le {times times' : List Nat} (hsub : times.Sublist times')
    (h : min a.hits (2 ^ 32 - 1) ≤ min b.hits (2 ^ 32 - 1)) :
    min (a.used times).hits (2 ^ 32 - 1) ≤ min (b.used times').hits (2 ^ 32 - 1) := by
  induction hsub generalizing a b with
  | slnil => exact h
  | cons t _ ih =>
    refine ih (b := b.touch t) ?_
    rw [min_hits_touch]
    omega
  | cons_cons t _ ih =>
    refine ih (a := a.touch t) (b := b.touch t) ?_
    rw [min_hits_touch, min_hits_touch]
    omega

/-- **With more uses an entry does not expire earlier.** -/
theorem isExpired_used_of_sublist {times times' : List Nat} (hsub : times.Sublist times')
    (h : (e.used times').isExpired basic now = true) :
    (e.used times).isExpired basic now = true := by
  -- Beyond `2 ^ 32 - 1` uses lengthen nothing, so what counts are the uses up to there.
  have huses := min_hits_used_le (a := e) (b := e) hsub (Nat.le_refl _)
  have hlife := Nat.mul_le_mul_left basic huses
  rw [isExpired_iff, createdAt_used] at h ⊢
  omega

end CacheEntry

namespace FrequencyCache

variable {c : FrequencyCache α} {k : String} {now basic : Nat}

/-- **A name that is not used** keeps its entry as it is, or loses it. -/
theorem entry_run_of_unused (hc : c.Distinct) {hs : CacheHistory α ε}
    (hunused : ∀ h ∈ hs, h.2.name? ≠ some k) :
    entry? (c.run hs) k = c.entry? k ∨ entry? (c.run hs) k = none := by
  induction hs generalizing c with
  | nil => exact .inl rfl
  | cons h rest ih =>
    obtain ⟨hfirst, hrest⟩ := List.forall_mem_cons.1 hunused
    rw [run, List.foldl_cons]
    rcases ih (hc.after h.2) hrest with hkept | hgone
    · rcases entry_after (k := k) hc h.2 h.1 with ⟨-, hnone⟩ | ⟨-, hsame⟩
      · exact .inr (hkept.trans hnone)
      · rw [if_neg hfirst] at hsame
        exact .inl (hkept.trans hsame)
    · exact .inr hgone

/-- In a cache with a basic duration, stale is what is expired by that duration. -/
theorem isStale_of_basic (h : c.basic = some basic) (e : CacheEntry α) :
    c.isStale now e = e.isExpired basic now := by
  rw [isStale, h]

/-- A sweep drops all it has to drop. -/
theorem sweep_sweep (keep : String → Bool) (now : Nat) :
    (c.sweep keep now).sweep keep now = c.sweep keep now := by
  have hkept : ∀ e ∈ (c.sweep keep now).entries,
      (keep e.1 && !(c.sweep keep now).isStale now e.2) = true :=
    fun _ he ↦ (List.mem_filter.1 he).2
  rw [sweep, List.filter_eq_self.2 hkept]

/-- What is swept out and what is kept are all there was. -/
theorem perm_sweep (keep : String → Bool) (now : Nat) :
    ∃ gone, c.entries.Perm ((c.sweep keep now).entries ++ gone) ∧
      gone.length = c.size - (c.sweep keep now).size := by
  have hperm := (List.filter_append_perm (fun e ↦ keep e.1 && !c.isStale now e.2) c.entries).symm
  refine ⟨_, hperm, ?_⟩
  have hlength := hperm.length_eq
  rw [List.length_append] at hlength
  rw [size, size, hlength, sweep, Nat.add_sub_cancel_left]

end FrequencyCache

namespace ResultCache

open FrequencyCache

/-- What there is to know of the collection for a graph at some time. -/
structure Collects (c : ResultCache) (basic : Nat) (g : EditorGraph) (now : Nat) : Prop where
  /-- It keeps the views that a node refers to and that are not too old for their uses, as they
  are. -/
  keeps : ∀ k e, (k, e) ∈ (c.collectFor g now).entries ↔ (k, e) ∈ c.entries ∧ g.RefersTo k ∧
    now - e.createdAt ≤ min (basic * min e.hits (2 ^ 32 - 1)) CacheEntry.longest
  /-- It tells how many are gone. -/
  counts : ∃ gone, c.entries.Perm ((c.collectFor g now).entries ++ gone) ∧
    c.countUnreferenced g.dataHandles now = gone.length
  /-- A second time there is nothing to collect. -/
  again : (c.collectFor g now).collectFor g now = c.collectFor g now ∧
    (c.collectFor g now).countUnreferenced g.dataHandles now = 0
  /-- It is the collection for any project with the workflow of the graph. -/
  garbage : ∀ p : Project, p.workflow = g.toWorkflow → c.collectGarbage p now = c.collectFor g now ∧
    c.countUnreferenced p.dataHandles now = c.countUnreferenced g.dataHandles now
  /-- A session makes it at the beginning of a sync, and on demand if the project has that
  workflow. -/
  session : ∀ s : Session, s.results = c → s.graph = g → s.desk.now = now →
    s.forgetUnreferenced.results = c.collectFor g now ∧ (s.project.workflow = g.toWorkflow →
      s.collectGarbage = (c.countUnreferenced g.dataHandles now, s.forgetUnreferenced))
  /-- With more uses a view does not expire earlier. -/
  usesHelp : ∀ (e : CacheEntry OutputView) (times times' : List Nat) (later : Nat),
    times.Sublist times' →
    (e.used times').isExpired basic later = true → (e.used times).isExpired basic later = true
  /-- What is expired stays so until it is used, whatever happens to the cache. -/
  onlyUsesHelp : ∀ (hs : CacheHistory OutputView Failure) k e e' later, c.entry? k = some e →
    e.isExpired basic now = true → now ≤ later → (∀ h ∈ hs, h.2.name? ≠ some k) →
    entry? (c.run hs) k = some e' → e'.isExpired basic later = true

/-- **A collection keeps what is live.** -/
theorem collection_keeps_live {c : ResultCache} {basic : Nat} (hc : c.Distinct)
    (hbasic : c.basic = some basic) (g : EditorGraph) (now : Nat) : c.Collects basic g now where
  keeps k e := by
    rw [collectFor, retainReferenced, sweep, List.mem_filter, Bool.and_eq_true,
      EditorGraph.contains_dataHandles, isStale_of_basic hbasic, Bool.not_eq_true',
      ← Bool.not_eq_true, CacheEntry.isExpired_iff, Nat.not_lt]
  counts := by
    obtain ⟨gone, hperm, hlength⟩ := perm_sweep (c := c) g.dataHandles.contains now
    exact ⟨gone, hperm, hlength.symm⟩
  again := by
    have hsame : (c.collectFor g now).collectFor g now = c.collectFor g now := sweep_sweep _ now
    -- nothing is left to drop the second time
    refine ⟨hsame, ?_⟩
    rw [countUnreferenced, ← collectFor, hsame, Nat.sub_self]
  garbage p hp := by
    rw [collectGarbage, Project.dataHandles_of_toWorkflow hp]
    exact ⟨rfl, rfl⟩
  session := by
    rintro s rfl rfl rfl
    refine ⟨rfl, fun hp ↦ ?_⟩
    rw [Session.collectGarbage, ResultCache.collectGarbage, Project.dataHandles_of_toWorkflow hp]
    rfl
  usesHelp _ _ _ _ hsub h := CacheEntry.isExpired_used_of_sublist hsub h
  onlyUsesHelp hs k e e' later he hexpired hle hunused he' := by
    -- without a use the entry is the same or gone
    rcases entry_run_of_unused hc hunused with hsame | hgone
    · rw [hsame, he] at he'
      cases he'
      exact CacheEntry.isExpired_of_le hexpired hle
    · rw [hgone] at he'
      cases he'

/-- Views that came in together. The first one was used twice. -/
def threeViews : ResultCache :=
  ⟨4, some 10, [("d1", ⟨.int 1, 2, 5, 0⟩), ("d2", ⟨.int 2, 1, 0, 0⟩),
    ("d3", ⟨.int 3, 9, 8, 0⟩)], by decide⟩

/-- One node, with two of them as outputs. -/
def twoOutputs : EditorGraph :=
  let outputs : OrderedMap DataHandle := .ofList [("left", "d1"), ("right", "d2")]
  ⟨[⟨"n", .tableSort, ⟨⟨0⟩, ⟨0⟩⟩, ⟨∅, none, none, some outputs, none⟩⟩], [], none⟩

/-- The first view is as old as it may be, and goes a moment later. -/
theorem collection_keeps_live_threeViews :
    threeViews.Distinct ∧ threeViews.basic = some 10 ∧
      (threeViews.collectFor twoOutputs 20).entries = [("d1", ⟨.int 1, 2, 5, 0⟩)] ∧
      threeViews.countUnreferenced twoOutputs.dataHandles 20 = 2 ∧
      (threeViews.collectFor twoOutputs 20).collectFor twoOutputs 20 =
        threeViews.collectFor twoOutputs 20 ∧
      ("d1", ⟨.int 1, 2, 5, 0⟩) ∉ (threeViews.collectFor twoOutputs 21).entries := by
  have hdistinct : (Entries.keys threeViews.entries).Nodup := by decide
  have hnow := collection_keeps_live hdistinct rfl twoOutputs 20
  have hlater := collection_keeps_live hdistinct rfl twoOutputs 21
  refine ⟨hdistinct, rfl, rfl, rfl, hnow.again.1, fun hmem ↦ ?_⟩
  obtain ⟨-, -, hage⟩ := (hlater.keeps _ _).1 hmem
  exact absurd hage (by decide)

end ResultCache

end GraphSession
