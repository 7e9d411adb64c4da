import GraphSession.Session.Access

/-!
# Whoever keeps the files

Files are kept by somebody who answers requests in some weather: the same request may fail today and
succeed tomorrow, and what it stores may be named today in one way and tomorrow in another. What is
read under a key is what is held there (`FileService.held`).

**What is promised** (`FileService.Lawful`). A request that fails changes nothing, and so does one
that only reads. An upload changes what is held under the key that it returns and a delete what is
held under its own, and neither touches any other key. Nothing is promised about when requests
succeed, which keys are chosen, or what becomes of the key that an upload or a delete is about. What
a cache may come to hold needs the first half of one promise alone, that what is read is what is
held (`FileService.Truthful`).
-/

namespace GraphSession

/-- Somebody who answers requests in states `σ`, each in some weather `ω`. -/
structure FileService (ω σ : Type) where
  /-- The answer to a request, and the state after it. -/
  answer : ω → σ → (r : Request) → Except Failure r.Answer × σ
  /-- What is read under a key, if it is read at all. -/
  held : σ → String → Option FileContent

/-- What is promised of somebody who keeps files. -/
structure FileService.Lawful {ω σ : Type} (v : FileService ω σ) : Prop where
  failed : ∀ {w t t' r e}, v.answer w t r = (.error e, t') → t' = t
  read : ∀ {w t t' key c}, v.answer w t (.content key) = (.ok c, t') →
    v.held t key = some c ∧ t' = t
  listed : ∀ {w t t' fs}, v.answer w t .files = (.ok fs, t') → t' = t
  uploaded : ∀ {w t t' p n f bs file}, v.answer w t (.upload p n f bs) = (.ok file, t') →
    ∀ key, key ≠ file.key → v.held t' key = v.held t key
  deleted : ∀ {w t t' k}, v.answer w t (.deletion k) = (.ok (), t') →
    ∀ key, key ≠ k → v.held t' key = v.held t key

/-- What is read under a key is what is held under it. -/
def FileService.Truthful {ω σ : Type} (v : FileService ω σ) : Prop :=
  ∀ {w t t' key c}, v.answer w t (.content key) = (.ok c, t') → v.held t key = some c

/-- What is promised of a service includes that it is truthful. -/
theorem FileService.Lawful.truthful {ω σ : Type} {v : FileService ω σ} (h : v.Lawful) :
    v.Truthful :=
  fun hanswer ↦ (h.read hanswer).1

/-- What can be called for. -/
inductive FileCall where
  | content (key : String)
  | list
  | upload (projectId : Int) (nodeId filename : String) (bytes : List UInt8)
  | delete (key : String)

/-- What a call about files comes to. -/
inductive FileResult where
  | listed (r : Except Failure (List FileRef))
  | access (r : AccessResult)

namespace FileCall

/-- What a call asks when nothing is cached. -/
def request : FileCall → Request
  | content key => .content key
  | list => .files
  | upload projectId nodeId filename bytes => .upload projectId nodeId filename bytes
  | delete key => .deletion key

/-- What a call comes to that is answered without a cache. -/
def resultOf : (c : FileCall) → Except Failure c.request.Answer → FileResult
  | content _, r => .access (.content r)
  | list, r => .listed r
  | upload _ _ _ _, r => .access (.uploaded r)
  | delete _, r => .access (.deleted r)

end FileCall

/-- Whether a call has succeeded. -/
def FileResult.isOk : FileResult → Bool
  | listed (.ok _) | access (.content (.ok _)) | access (.uploaded (.ok _)) | access
    (.deleted (.ok _))
  | access (.view (.ok _)) => true
  | _ => false

/-! ### A shelf -/

/-- Files in a row, of which the first counts among those of one key. -/
abbrev Shelf := List (String × FileContent)

namespace Shelf

/-- The answers of a shelf in good weather. A file is named by its node. -/
def comply (t : Shelf) : (r : Request) → Except Failure r.Answer × Shelf
  | .content key =>
    match t.lookup key with
    | some c => (.ok c, t)
    | none => (.error (.api 404 key), t)
  | .files => (.ok (t.map fun f ↦ ⟨f.1, f.1, f.2.length⟩), t)
  | .upload _ nodeId filename bytes =>
    (.ok ⟨nodeId ++ "/" ++ filename, filename, bytes.length⟩,
      (nodeId ++ "/" ++ filename, .bytes bytes) :: t)
  | .deletion key => (.ok (), t.filter fun f ↦ f.1 ≠ key)
  | .thumbnail | .submission _ | .view _ => (.error .serialization, t)

/-- A shelf that fails with what the weather says. -/
def service : FileService (Option Failure) Shelf where
  answer w t r :=
    match w with
    | some e => (.error e, t)
    | none => t.comply r
  held t key := t.lookup key

theorem lookup_filter_of_ne {key k : String} (hkey : key ≠ k) (t : Shelf) :
    (t.filter fun f ↦ f.1 ≠ k).lookup key = t.lookup key := by
  induction t with
  | nil => rfl
  | cons f rest ih =>
    obtain ⟨name, c⟩ := f
    by_cases hname : name = k
    · subst hname
      simpa [List.lookup_cons, beq_eq_false_iff_ne.2 hkey] using ih
    · rw [List.filter_cons, if_pos (decide_eq_true hname), List.lookup_cons, List.lookup_cons, ih]

/-- **A shelf keeps what is promised of those who keep files.** -/
theorem lawful_service : service.Lawful where
  failed {w t t' r e} h := by
    cases w with
    | some e' => exact (congrArg Prod.snd h).symm
    | none =>
      cases r with
      | content key =>
        -- a key that is not there
        simp only [service, comply] at h
        split at h <;> cases h
        rfl
      | files | upload | deletion => cases congrArg Prod.fst h
      | thumbnail | submission | view => exact (congrArg Prod.snd h).symm
  read {w t t' key c} h := by
    cases w with
    | some e => cases h
    | none =>
      simp only [service, comply] at h
      split at h <;> cases h
      exact ⟨by assumption, rfl⟩
  listed {w t t' fs} h := by
    cases w with
    | some e => cases h
    | none => exact (congrArg Prod.snd h).symm
  uploaded {w t t' p n f bs file} h key hkey := by
    cases w with
    | some e => cases h
    | none =>
      cases h
      exact (List.lookup_cons).trans (by rw [beq_eq_false_iff_ne.2 hkey]; rfl)
  deleted {w t t' k} h key hkey := by
    cases w with
    | some e => cases h
    | none =>
      cases h
      exact lookup_filter_of_ne hkey t

end Shelf

end GraphSession
