import GraphSession.Proofs.Url.Query
import GraphSession.Proofs.Url.Segments
import GraphSession.Remote.TaskAddress

/-!
# Where the id of a task leads

An address keeps everything of the endpoint and has the id at the end of its path, and the token at
the end of its query. What comes of the id in the path is its `TaskPlace`: most ids are the name of
one segment below `tasks`, but tabs and line breaks do not show, and dots are steps. So an address
tells the place of an id and not the id, and exactly the ids of one place have one address
(`taskAddress_leads`).
-/

namespace GraphSession

/-- Where the id of a task leads to from an endpoint. -/
inductive TaskPlace where
  /-- To the tasks, without a name. -/
  | tasks
  /-- Back to the endpoint. -/
  | endpoint
  /-- To what has a name among the tasks. -/
  | named (name : String)
  deriving DecidableEq

/-- What of an id shows in an address: no tabs and no line breaks. -/
def shownId (taskId : String) : List Char :=
  taskId.toList.filter fun c ↦ c ≠ '\t' && c ≠ '\n' && c ≠ '\r'

namespace TaskPlace

/-- The place of an id. One and two dots are left out; if they show only after something else has
gone, one dot is an empty name and two dots lead back. -/
def ofId (taskId : String) : TaskPlace :=
  if taskId = "." ∨ taskId = ".." then tasks
  else if shownId taskId = ['.', '.'] then endpoint
  else if shownId taskId = ['.'] then named ""
  else named (String.ofList (shownId taskId))

/-- What follows the endpoint in a path that leads to the place. -/
def IsReachedBy : TaskPlace → List String → Prop
  | tasks, tail => tail = ["tasks"]
  | endpoint, tail => tail = [""]
  | named name, tail => ∃ s, tail = ["tasks", s] ∧ UrlPath.textOf? s = some name

/-- How the place is written behind the endpoint. -/
def tail (special : Bool) : TaskPlace → List String
  | tasks => ["tasks"]
  | endpoint => [""]
  | named name => ["tasks", String.ofList (UrlPath.written special name.toList)]

/-- The segments that a place is written with lead to it. -/
theorem isReachedBy_tail (special : Bool) (p : TaskPlace) : p.IsReachedBy (p.tail special) := by
  cases p with
  | tasks => rfl
  | endpoint => rfl
  | named name =>
    refine ⟨_, rfl, ?_⟩
    rw [UrlPath.textOf?_written, String.ofList_toList]

end TaskPlace

/-! ### Extending the path -/

namespace Url

/-- The segments of an endpoint that stay: an empty one at the end goes, and so does what is left of
the path of two slashes. -/
def stem (segments : List String) : List String :=
  if segments.getLast? = some "" then if segments.dropLast = [""] then [] else segments.dropLast
  else segments

/-- Without an empty segment at its end, and the slash of an empty path aside, a path is its stem.
-/
theorem stem_eq (segments : List String) :
    (if withoutLastEmpty segments = [""] then [] else withoutLastEmpty segments) =
      stem segments := by
  rw [withoutLastEmpty, stem]
  match segments with
  | [] => rfl
  | [s] =>
    by_cases hs : s = ""
    · subst hs
      rfl
    · simp [hs]
  | s :: t :: rest =>
    have hlong : ¬(s :: t :: rest).length ≤ 1 := by simp
    have hne : s :: t :: rest ≠ [""] := by simp
    rw [if_neg hlong]
    by_cases hlast : (s :: t :: rest).getLast? = some ""
    · rw [if_pos hlast, if_pos hlast]
    · rw [if_neg hlast, if_neg hlast, if_neg hne]

theorem stem_ne (segments : List String) : stem segments ≠ [""] := by
  rw [stem]
  split_ifs with hlast hdrop
  · exact (List.cons_ne_nil _ _).symm
  · exact hdrop
  · rintro rfl
    exact hlast rfl

theorem pushSegment_eq (u : Url) (segments : List String) (s : String) :
    u.pushSegment segments s =
      UrlPath.push (u.scheme = "file") true (if segments = [""] then [] else segments)
        (UrlPath.written (isSpecial u.scheme) (shownId s)) := rfl

/-- The first segment that is pushed goes behind the stem. -/
theorem pushSegment_tasks (u : Url) (segments : List String) :
    u.pushSegment (withoutLastEmpty segments) "tasks" = stem segments ++ ["tasks"] := by
  have hshown : shownId "tasks" = "tasks".toList := by decide
  have hwritten : ∀ special, UrlPath.written special "tasks".toList = "tasks".toList := by decide
  have hkept : UrlPath.kept (u.scheme = "file") (stem segments) "tasks".toList = "tasks" := by
    rw [UrlPath.kept_eq (Bool.and_eq_false_imp.2 fun _ ↦ rfl), String.ofList_toList]
  rw [pushSegment_eq, stem_eq, hshown, UrlPath.push_written, if_neg (by decide), if_neg (by decide),
    hwritten, hkept]

/-- The second segment that is pushed makes the place of the id, unless it is left out. -/
theorem pushSegment_id (u : Url) (segments : List String) {taskId : String}
    (h : ¬(taskId = "." ∨ taskId = "..")) :
    u.pushSegment (stem segments ++ ["tasks"]) taskId =
      stem segments ++ (TaskPlace.ofId taskId).tail (isSpecial u.scheme) := by
  have hne : stem segments ++ ["tasks"] ≠ [""] := by
    intro h
    have hlast := congrArg List.getLast? h
    rw [List.getLast?_concat] at hlast
    exact absurd hlast (by decide)
  rw [pushSegment_eq, if_neg hne, UrlPath.push_written, TaskPlace.ofId, if_neg h]
  split_ifs with htwo hone
  · rw [UrlPath.shorten_append_singleton rfl, TaskPlace.tail]
  · rw [List.append_assoc, TaskPlace.tail]
    rfl
  · have hkept : ∀ s, UrlPath.kept (u.scheme = "file") (stem segments ++ ["tasks"]) s =
        String.ofList s := by
      intro s
      have hempty : (stem segments ++ ["tasks"]).isEmpty = false :=
        List.isEmpty_eq_false_iff.2 (List.append_ne_nil_of_right_ne_nil _ (List.cons_ne_nil _ _))
      exact UrlPath.kept_eq (by rw [hempty, Bool.and_false, Bool.false_and])
    rw [hkept, List.append_assoc, TaskPlace.tail, String.toList_ofList]
    rfl

/-- An endpoint with a path is extended to the place of the id. -/
theorem extend?_tasks {base : Url} {a : Option Authority} {segments : List String}
    (h : base.body = .path a segments) (taskId : String) :
    base.extend? ["tasks", taskId] =
      some { base with
        body := .path a (stem segments ++ (TaskPlace.ofId taskId).tail
          (isSpecial base.scheme)) } := by
  have hpushed : base.pushSegments (withoutLastEmpty segments) ["tasks", taskId] =
      stem segments ++ (TaskPlace.ofId taskId).tail (isSpecial base.scheme) := by
    rw [pushSegments, if_neg (by decide), pushSegment_tasks, pushSegments, pushSegments]
    split_ifs with hdots
    · rw [TaskPlace.ofId, if_pos hdots, TaskPlace.tail]
    · exact pushSegment_id base segments hdots
  rw [extend?, h]
  dsimp only
  rw [hpushed]

end Url

/-! ### Addresses as texts -/

namespace TaskPlace

/-- The characters that a place adds to a path. -/
def chars (special : Bool) : TaskPlace → List Char
  | tasks => ['/', 't', 'a', 's', 'k', 's']
  | endpoint => ['/']
  | named name => ['/', 't', 'a', 's', 'k', 's', '/'] ++ UrlPath.written special name.toList

/-- The text of a place is its characters. -/
theorem toList_text_tail (special : Bool) (p : TaskPlace) :
    (UrlPath.text (p.tail special)).toList = p.chars special := by
  have htasks : "tasks".toList = ['t', 'a', 's', 'k', 's'] := by decide
  have hnil : (UrlPath.text []).toList = [] := rfl
  cases p with
  | tasks => rw [tail, UrlPath.toList_text_cons, htasks, hnil, chars]; rfl
  | endpoint => rw [tail, UrlPath.toList_text_cons, hnil, chars]; rfl
  | named name =>
    rw [tail, UrlPath.toList_text_cons, UrlPath.toList_text_cons, htasks, hnil,
      String.toList_ofList, chars, List.append_nil]
    rfl

theorem length_chars_named (special : Bool) (name : String) :
    7 ≤ ((named name).chars special).length := by
  rw [chars, List.length_append]
  exact Nat.le_add_right _ _

/-- **A place is known by what it adds.** -/
theorem chars_injective {special : Bool} {p p' : TaskPlace}
    (h : p.chars special = p'.chars special) :
    p = p' := by
  have hlength := congrArg List.length h
  cases p with
  | tasks =>
    cases p' with
    | tasks => rfl
    | endpoint => exact absurd hlength (by simp [chars])
    | named name => exact absurd (hlength ▸ length_chars_named special name) (by simp [chars])
  | endpoint =>
    cases p' with
    | tasks => exact absurd hlength (by simp [chars])
    | endpoint => rfl
    | named name => exact absurd (hlength ▸ length_chars_named special name) (by simp [chars])
  | named name =>
    cases p' with
    | tasks => exact absurd (hlength ▸ length_chars_named special name) (by simp [chars])
    | endpoint => exact absurd (hlength ▸ length_chars_named special name) (by simp [chars])
    | named name' =>
      have hname := UrlPath.written_injective (List.append_cancel_left h)
      rw [String.toList_inj.1 hname]

/-- What a place adds is over at the query. -/
theorem not_mark_of_mem_chars {special : Bool} {p : TaskPlace} {c : Char}
    (h : c ∈ p.chars special) :
    c ∉ ['?', '#'] := by
  have hfront : ∀ c ∈ ['/', 't', 'a', 's', 'k', 's', '/'], c ∉ ['?', '#'] := by simp
  cases p with
  | tasks => exact hfront c (List.mem_append_left ['/'] h)
  | endpoint => exact hfront c (List.mem_append_right ['/', 't', 'a', 's', 'k', 's'] h)
  | named name =>
    rw [chars, List.mem_append] at h
    obtain h | h := h
    · exact hfront c h
    · have hnot := UrlPath.not_mark_of_mem_written h
      exact fun hmark ↦ hnot (List.mem_cons_of_mem '/' hmark)

end TaskPlace

namespace Url

theorem needsDot_of_ne {s : String} (h : s ≠ "") (rest : List String) :
    UrlBody.needsDot (s :: rest) = false := by
  simp [UrlBody.needsDot, h]

/-- Whether the path has to be set off does not depend on the place. -/
theorem needsDot_tail (special : Bool) (p : TaskPlace) (segments : List String) :
    UrlBody.needsDot (stem segments ++ p.tail special) = UrlBody.needsDot (stem segments) := by
  have hne := stem_ne segments
  match hstem : stem segments with
  | [] => cases p <;> rfl
  | s :: rest =>
    by_cases hs : s = ""
    · subst hs
      match rest with
      | [] => exact absurd hstem hne
      | t :: rest => rfl
    · rw [needsDot_of_ne hs, List.cons_append, needsDot_of_ne hs]

/-- What a URL with a path is before a part of its path. -/
def front (scheme : String) (a : Option Authority) (dot : Bool) (segments : List String) :
    List Char :=
  (scheme ++ ":").toList ++
    (match a with
      | some a => ("//" ++ a.text).toList
      | none => (if dot then "/." else "").toList) ++
    (UrlPath.text segments).toList

/-- What a URL is from the query on. -/
def back (u : Url) : List Char := (marked "?" u.query).toList ++ (marked "#" u.fragment).toList

theorem mark_of_head?_back {u : Url} {c : Char} (h : c ∈ u.back.head?) : c ∈ ['?', '#'] := by
  have hquery : "?".toList = ['?'] := by decide
  have hfragment : "#".toList = ['#'] := by decide
  rw [back] at h
  match hq : u.query, hf : u.fragment with
  | some q, _ =>
    rw [hq, marked, String.toList_append, hquery] at h
    obtain rfl := Option.some.inj h
    decide
  | none, some f =>
    rw [hq, hf, marked, marked, String.toList_append, hfragment] at h
    obtain rfl := Option.some.inj h
    decide
  | none, none =>
    rw [hq, hf] at h
    cases h

/-- The text of a URL with a path, cut at any segment. -/
theorem toList_text_of_path {u : Url} {a : Option Authority} {segments tail : List String}
    (h : u.body = .path a (segments ++ tail)) :
    u.text.toList = front u.scheme a (UrlBody.needsDot (segments ++ tail)) segments ++
      ((UrlPath.text tail).toList ++ u.back) := by
  rw [text, h]
  cases a with
  | some a =>
    simp only [UrlBody.text, front, back, String.toList_append, UrlPath.toList_text_append,
      List.append_assoc]
  | none =>
    simp only [UrlBody.text, front, back, String.toList_append, UrlPath.toList_text_append,
      List.append_assoc]

end Url

/-- **The place can be told from the text of an address**, whatever the query is. -/
theorem TaskPlace.eq_of_text {u u' : Url} {a : Option Authority} {segments : List String}
    {special : Bool} {p p' : TaskPlace} (hscheme : u.scheme = u'.scheme)
    (h : u.body = .path a (Url.stem segments ++ p.tail special))
    (h' : u'.body = .path a (Url.stem segments ++ p'.tail special)) (htext : u.text = u'.text) :
    p = p' := by
  have hlist := congrArg String.toList htext
  rw [Url.toList_text_of_path h, Url.toList_text_of_path h', Url.needsDot_tail, Url.needsDot_tail,
    hscheme, toList_text_tail, toList_text_tail] at hlist
  exact chars_injective <| Text.eq_of_append_marked
    (fun _ ↦ not_mark_of_mem_chars) (fun _ ↦ not_mark_of_mem_chars)
    (fun _ ↦ Url.mark_of_head?_back) (fun _ ↦ Url.mark_of_head?_back)
    (List.append_cancel_left hlist)

/-! ### Addresses -/

/-- An id that is the name of its place: it shows as it is, and it is no step. -/
structure IsPlainId (taskId : String) : Prop where
  ne_dot : taskId ≠ "."
  ne_dots : taskId ≠ ".."
  shows : ∀ c ∈ taskId.toList, c ≠ '\t' ∧ c ≠ '\n' ∧ c ≠ '\r'

/-- An id shows as it is when it has no tabs and no line breaks. -/
theorem shownId_eq_iff {taskId : String} :
    shownId taskId = taskId.toList ↔ ∀ c ∈ taskId.toList, c ≠ '\t' ∧ c ≠ '\n' ∧ c ≠ '\r' := by
  rw [shownId, List.filter_eq_self]
  simp [and_assoc]

/-- A plain id has a place of its own. -/
theorem TaskPlace.ofId_of_isPlainId {taskId : String} (h : IsPlainId taskId) :
    ofId taskId = named taskId := by
  have hshown : shownId taskId = taskId.toList := shownId_eq_iff.2 h.shows
  have hdots : taskId.toList ≠ ['.', '.'] := fun hlist ↦ h.ne_dots (String.toList_inj.1 hlist)
  have hdot : taskId.toList ≠ ['.'] := fun hlist ↦ h.ne_dot (String.toList_inj.1 hlist)
  rw [ofId, if_neg (not_or.2 ⟨h.ne_dot, h.ne_dots⟩), hshown, if_neg hdots, if_neg hdot,
    String.ofList_toList]

/-- Only a plain id has the place of its name. -/
theorem TaskPlace.isPlainId_of_ofId {taskId : String} (h : ofId taskId = named taskId) :
    IsPlainId taskId := by
  rw [ofId] at h
  split_ifs at h with hstep hdots hdot
  · -- a single dot shows of no empty id
    obtain rfl := named.inj h
    exact absurd hdot (by decide)
  · have hshown : shownId taskId = taskId.toList := by
      rw [← String.toList_inj.2 (named.inj h), String.toList_ofList]
    exact ⟨fun hone ↦ hstep (.inl hone), fun htwo ↦ hstep (.inr htwo), shownId_eq_iff.1 hshown⟩

/-- A path to a name leads to the place of that name only. -/
theorem TaskPlace.IsReachedBy.eq_named {p : TaskPlace} {s name : String}
    (h : p.IsReachedBy ["tasks", s]) (hname : UrlPath.textOf? s = some name) : p = named name := by
  cases p with
  | tasks => cases h
  | endpoint => cases (List.cons.inj h).2
  | named name' =>
    obtain ⟨s', hs, hname'⟩ := h
    obtain rfl : s = s' := by simpa using hs
    rw [Option.some.inj (hname'.symm.trans hname)]

/-- What an address keeps of the endpoint, and what it adds. -/
structure Url.Extends (base : Url) (a : Option Authority) (segments tail : List String)
    (token : Option String) (u : Url) : Prop where
  scheme : u.scheme = base.scheme
  body : u.body = .path a (stem segments ++ tail)
  fragment : u.fragment = base.fragment
  query_of_none : token = none → u.query = base.query
  /-- What was in the query stays in front. -/
  query_prefix : (base.query.getD "").toList <+: (u.query.getD "").toList
  pairs : u.pairs = base.pairs ++ token.toList.map fun t ↦ ("token", t)

theorem Url.extends_none {base : Url} {a : Option Authority} {segments tail : List String} :
    base.Extends a segments tail none { base with body := .path a (stem segments ++ tail) } where
  scheme := rfl
  body := rfl
  fragment := rfl
  query_of_none _ := rfl
  query_prefix := List.prefix_rfl
  pairs := (List.append_nil _).symm

/-- A token is added behind the path, and leaves it. -/
theorem Url.Extends.addToken {base u : Url} {a : Option Authority} {segments tail : List String}
    (h : base.Extends a segments tail none u) (token : String) :
    base.Extends a segments tail (some token) (u.addPair "token" token) where
  scheme := h.scheme
  body := h.body
  fragment := h.fragment
  query_of_none := nofun
  query_prefix := h.query_of_none rfl ▸ query_prefix_addPair u "token" token
  pairs := by rw [pairs_addPair, h.pairs, List.append_assoc]; rfl

/-- The address of a task extends the endpoint by the place of the id. -/
theorem taskAddress_extends {base : Url} {a : Option Authority} {segments : List String}
    (h : base.body = .path a segments) (taskId : String) (token : Option String) :
    ∃ u, taskAddress base taskId token = .ok u ∧
      base.Extends a segments ((TaskPlace.ofId taskId).tail (Url.isSpecial base.scheme))
        token u := by
  rw [taskAddress, Url.extend?_tasks h]
  cases token with
  | none => exact ⟨_, rfl, Url.extends_none⟩
  | some t => exact ⟨_, rfl, Url.extends_none.addToken t⟩

/-- Ids of one place have one address. -/
theorem taskAddress_congr {base : Url} {a : Option Authority} {segments : List String}
    (h : base.body = .path a segments) {taskId taskId' : String}
    (hplace : TaskPlace.ofId taskId = TaskPlace.ofId taskId') (token : Option String) :
    taskAddress base taskId token = taskAddress base taskId' token := by
  rw [taskAddress, taskAddress, Url.extend?_tasks h, Url.extend?_tasks h, hplace]

/-- Addresses with the same text are of one place, whatever the tokens. -/
theorem place_eq_of_text {base : Url} {a : Option Authority} {segments : List String}
    (h : base.body = .path a segments) {taskId taskId' : String} {token token' : Option String}
    {u u' : Url} (hu : taskAddress base taskId token = .ok u)
    (hu' : taskAddress base taskId' token' = .ok u') (htext : u.text = u'.text) :
    TaskPlace.ofId taskId = TaskPlace.ofId taskId' := by
  obtain ⟨v, hv, hextends⟩ := taskAddress_extends h taskId token
  obtain ⟨v', hv', hextends'⟩ := taskAddress_extends h taskId' token'
  obtain rfl := Except.ok.inj (hu.symm.trans hv)
  obtain rfl := Except.ok.inj (hu'.symm.trans hv')
  exact TaskPlace.eq_of_text (hextends.scheme.trans hextends'.scheme.symm) hextends.body
    hextends'.body htext

/-- **An address leads to the place of the id, and tells nothing else of it.** It keeps the endpoint
and carries the token as the last pair. Its last segment after `tasks` stands for the id exactly if
the id is plain, and two ids have a common address exactly if they have one place. -/
theorem taskAddress_leads {base : Url} {a : Option Authority} {segments : List String}
    (h : base.body = .path a segments) (taskId : String) :
    (∃ tail, (TaskPlace.ofId taskId).IsReachedBy tail ∧
      ((∃ s, tail = ["tasks", s] ∧ UrlPath.textOf? s = some taskId) ↔ IsPlainId taskId) ∧
      ∀ token, ∃ u, taskAddress base taskId token = .ok u ∧ base.Extends a segments tail token u) ∧
    ∀ taskId',
      (∀ token token' u u', taskAddress base taskId token = .ok u →
        taskAddress base taskId' token' = .ok u' →
        u.text = u'.text → TaskPlace.ofId taskId = TaskPlace.ofId taskId') ∧
      (TaskPlace.ofId taskId = TaskPlace.ofId taskId' →
        ∀ token, taskAddress base taskId token = taskAddress base taskId' token) := by
  have hreached := TaskPlace.isReachedBy_tail (Url.isSpecial base.scheme) (TaskPlace.ofId taskId)
  refine ⟨⟨_, hreached, ⟨?_, fun hplain ↦ ?_⟩, taskAddress_extends h taskId⟩, fun taskId' ↦
    ⟨fun token token' u u' ↦ place_eq_of_text h, taskAddress_congr h⟩⟩
  · rintro ⟨s, htail, hs⟩
    rw [htail] at hreached
    exact TaskPlace.isPlainId_of_ofId (hreached.eq_named hs)
  · rwa [TaskPlace.ofId_of_isPlainId hplain] at hreached ⊢

/-- Dots lead to one place, and behind a tab to another one. -/
example : TaskPlace.ofId "." = TaskPlace.ofId ".." ∧ TaskPlace.ofId "..\t" = .endpoint := by decide

/-- The endpoint `ws://h/p?x=1`. -/
def queriedEndpoint : Url :=
  ⟨"ws", .path (some ⟨"", none, .name "h", none⟩) ["p"], some "x=1", none⟩

/-- A tab does not show: two ids have one address, and no segment of it stands for the one with the
tab. -/
theorem taskAddress_leads_tabbed :
    Url.ofText "ws://h/p?x=1" = .ok queriedEndpoint ∧
      queriedEndpoint.body = .path (some ⟨"", none, .name "h", none⟩) ["p"] ∧
      (∀ token, taskAddress queriedEndpoint "a\tb" token = taskAddress queriedEndpoint "ab" token) ∧
      ∃ tail, (¬∃ s, tail = ["tasks", s] ∧ UrlPath.textOf? s = some "a\tb") ∧
        ∃ u, taskAddress queriedEndpoint "a\tb" (some "t") = .ok u ∧
          u.segments? = some (["p"] ++ tail) ∧
          u.pairs = queriedEndpoint.pairs ++ [("token", "t")] := by
  obtain ⟨⟨tail, -, hplain, haddress⟩, hplaces⟩ := @taskAddress_leads queriedEndpoint _ _ rfl "a\tb"
  obtain ⟨u, hu, hextends⟩ := haddress (some "t")
  refine ⟨by decide +kernel, rfl, (hplaces "ab").2 (by decide), tail, fun hs ↦ ?_, u, hu, ?_,
    hextends.pairs⟩
  · exact ((hplain.1 hs).shows '\t' (by decide)).1 rfl
  · rw [Url.segments?, hextends.body]
    rfl

end GraphSession
