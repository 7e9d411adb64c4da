import Mathlib.Data.List.Infix
import GraphSession.Proofs.Json.Numerals
import GraphSession.Proofs.Url.Components
import GraphSession.Remote.Exchange

/-!
# Where the requests for files and outputs lead

A file, a node or an output is asked for by its name, as one segment below an endpoint. The address
is put together as a text and then read, and reading knows two names that are no segments: one dot
is the empty name, and two dots take the last segment of the endpoint away. Apart from that every
request leads to its name, and to no other (`RemoteCall.request_leads`).

**Folders.** All endpoints are below the folder of the base, which is the base as a text with one
slash at its end. A folder with a query or a fragment is no place for them, since they come after
everything that it has. And a base that ends in a blank has a folder of its own, if any: there the
blank is part of the path or the host.
-/

namespace GraphSession

/-! ### What is asked for -/

/-- Below what something is asked for by name. -/
inductive Endpoint where
  | files
  /-- The files of a project. -/
  | project (id : Int)
  | data

namespace Endpoint

/-- The segments of the path of an endpoint. -/
def segments : Endpoint → List String
  | files => ["files"]
  | project id => ["files", (Json.int id).text]
  | data => ["data"]

theorem segments_ne_nil (e : Endpoint) : e.segments ≠ [] := by
  cases e <;> exact List.cons_ne_nil _ _

/-- A whole number is written with a sign and digits. -/
theorem of_mem_writeInt {id : Int} {c : Char} (hc : c ∈ Json.writeInt id) :
    c = '-' ∨ c.isDigit = true := by
  unfold Json.writeInt at hc
  split at hc
  · exact (List.mem_cons.1 hc).imp_right Json.isDigit_of_mem
  · exact .inr (Json.isDigit_of_mem hc)

/-- The segments of an endpoint need no escapes, and have nothing in them that dots are written
with. -/
theorem isSelf_of_mem (e : Endpoint) {s : String} (hs : s ∈ e.segments) {c : Char}
    (hc : c ∈ s.toList) :
    isSelf c = true ∧ c ≠ '.' ∧ c ≠ '%' := by
  have hword : ∀ {word : String},
      (word.toList.all fun c ↦ isSelf c && c != '.' && c != '%') = true →
      c ∈ word.toList → isSelf c = true ∧ c ≠ '.' ∧ c ≠ '%' := fun hall hc ↦ by
    simpa [and_assoc] using List.all_eq_true.1 hall c hc
  have hdigit : ∀ c : Char, c.toNat < 0x80 → c.isDigit = true →
      isSelf c = true ∧ c ≠ '.' ∧ c ≠ '%' :=
    forall_ascii (by decide +kernel)
  cases e with
  | files => exact hword (by decide) (List.mem_singleton.1 hs ▸ hc)
  | data => exact hword (by decide) (List.mem_singleton.1 hs ▸ hc)
  | project id =>
    rw [segments, List.mem_pair] at hs
    obtain rfl | rfl := hs
    · exact hword (by decide) hc
    · rw [Json.text, String.toList_ofList] at hc
      obtain rfl | hc := of_mem_writeInt hc
      · decide
      · have hlt : c.toNat < 0x80 := by
          have := Json.toNat_of_isDigit hc
          omega
        exact hdigit c hlt hc

end Endpoint

/-- What a call asks for by name; a file that is uploaded has a name of its own. -/
structure Asked where
  endpoint : Endpoint
  name : String
  filename : Option String

/-- What a call asks for by name; the other calls ask for nothing by name. -/
def RemoteCall.asked? : RemoteCall → Option Asked
  | content key | deleteFile key => some ⟨.files, key, none⟩
  | upload projectId nodeId filename _ => some ⟨.project projectId, nodeId, some filename⟩
  | view handle => some ⟨.data, handle, none⟩
  | submit _ | listProjects | fetchProject _ | createProject _ | deleteProject _
  | renameProject _ _ | listFiles =>
    none

namespace UrlPath

/-- Dots are written with dots or escapes. -/
theorem mem_of_toLower_eq {d s rest : List Char} (hd : d ∈ dot)
    (h : s.map Char.toLower = d ++ rest) :
    '.' ∈ s ∨ '%' ∈ s := by
  rw [dot, List.mem_pair] at hd
  obtain rfl | rfl := hd
  · obtain ⟨c, _, rfl, hc, -⟩ := List.map_eq_cons_iff.1 h
    obtain rfl := eq_of_toLower_eq hc rfl
    exact .inl List.mem_cons_self
  · obtain ⟨c, _, rfl, hc, -⟩ := List.map_eq_cons_iff.1 h
    obtain rfl := eq_of_toLower_eq hc rfl
    exact .inr List.mem_cons_self

/-- A segment without dots and escapes is taken in as it is. -/
theorem push_of_not_mem {s : List Char} (hdot : '.' ∉ s) (hpercent : '%' ∉ s) (last : Bool)
    (segments : List String) : push false last segments s = segments ++ [String.ofList s] := by
  have hdouble : ¬isDoubleDot s = true := by
    intro h
    obtain ⟨d, hd, h⟩ := List.any_eq_true.1 h
    obtain ⟨e, he, hs⟩ := List.any_eq_true.1 h
    rw [sameIgnoringCase, decide_eq_true_eq, List.map_append, map_toLower_of_mem_dot hd] at hs
    exact (mem_of_toLower_eq hd hs.symm).elim hdot hpercent
  have hsingle : ¬isSingleDot s = true := by
    intro h
    obtain ⟨d, hd, hs⟩ := List.any_eq_true.1 h
    rw [sameIgnoringCase, decide_eq_true_eq, map_toLower_of_mem_dot hd, ← List.append_nil d] at hs
    exact (mem_of_toLower_eq hd hs.symm).elim hdot hpercent
  rw [push, if_neg hdouble, if_neg hsingle, kept_eq rfl]

end UrlPath

namespace Asked

variable (m : Asked)

/-- What stands behind the base in an address. -/
def tail : UrlTail where
  segments := m.endpoint.segments ++ [Percent.component m.name]
  query := m.filename.map fun name ↦ "filename=" ++ Percent.component name
  ne_nil := List.append_ne_nil_of_right_ne_nil _ (List.cons_ne_nil _ _)
  isSelf_segments s hs c hc := by
    rcases List.mem_append.1 hs with hs | hs
    · exact (m.endpoint.isSelf_of_mem hs hc).1
    · obtain rfl := List.mem_singleton.1 hs
      exact Percent.isSelf_of_mem_component hc
  isSelf_query q hq c hc := by
    obtain ⟨name, -, rfl⟩ := Option.map_eq_some_iff.1 hq
    have hmark : "filename=".toList.all isSelf = true := by decide
    rw [String.toList_append, List.mem_append] at hc
    exact hc.elim (List.all_eq_true.1 hmark c) Percent.isSelf_of_mem_component

/-- The segments that a path takes in for these. -/
def landing : List String :=
  if m.name = ".." then m.endpoint.segments.dropLast ++ [""]
  else if m.name = "." then m.endpoint.segments ++ [""]
  else m.endpoint.segments ++ [Percent.component m.name]

/-- The segments of an endpoint are taken in as they are. -/
theorem foldl_push_segments (e : Endpoint) (front : List String) :
    (e.segments.map String.toList).foldl (UrlPath.push false false) front =
      front ++ e.segments := by
  have hall : ∀ segments : List String, (∀ s ∈ segments, ∀ c ∈ s.toList, c ≠ '.' ∧ c ≠ '%') →
      ∀ front, (segments.map String.toList).foldl (UrlPath.push false false) front =
        front ++ segments := by
    intro segments h
    induction segments with
    | nil => exact fun front ↦ (List.append_nil front).symm
    | cons s segments ih =>
      intro front
      obtain ⟨hs, hsegments⟩ := List.forall_mem_cons.1 h
      rw [List.map_cons, List.foldl_cons,
        UrlPath.push_of_not_mem (fun hc ↦ (hs '.' hc).1 rfl) (fun hc ↦ (hs '%' hc).2 rfl),
        ih hsegments, String.ofList_toList, List.append_assoc]
      rfl
  exact hall e.segments (fun s hs c hc ↦ (e.isSelf_of_mem hs hc).2) front

theorem landing_ne_nil : m.landing ≠ [] := by
  rw [landing]
  split_ifs <;> exact List.append_ne_nil_of_right_ne_nil _ (List.cons_ne_nil _ _)

/-- Reading takes in an endpoint and a name as their landing. -/
theorem pushAll_tail (front : List String) :
    UrlPath.pushAll false front (m.tail.segments.map String.toList) = front ++ m.landing := by
  have hdouble : UrlPath.isDoubleDot (Percent.component m.name).toList = true ↔ m.name = ".." := by
    refine ⟨fun h ↦ Percent.bytesOf_injective ?_, fun h ↦ by rw [h]; decide +kernel⟩
    rw [← Percent.decode_component m.name, Utf8.bytesOf, UrlPath.decode_of_isDoubleDot h]
    rfl
  have hsingle : UrlPath.isSingleDot (Percent.component m.name).toList = true ↔ m.name = "." := by
    refine ⟨fun h ↦ Percent.bytesOf_injective ?_, fun h ↦ by rw [h]; decide +kernel⟩
    rw [← Percent.decode_component m.name, Utf8.bytesOf, UrlPath.decode_of_isSingleDot h]
    rfl
  rw [tail, List.map_append, List.map_singleton,
    UrlPath.pushAll_append _ _ _ (List.cons_ne_nil _ _), foldl_push_segments]
  show UrlPath.push false true _ _ = _
  simp only [UrlPath.push, hdouble, hsingle, if_true, landing]
  split_ifs
  · show (front ++ m.endpoint.segments).dropLast ++ [""] = _
    rw [List.dropLast_append_of_ne_nil m.endpoint.segments_ne_nil, List.append_assoc]
  · exact List.append_assoc _ _ _
  · rw [UrlPath.kept_eq rfl, String.ofList_toList, List.append_assoc]

/-- **A URL as the endpoint is documented**: below a folder stands the endpoint, then one segment
that is read as the name, and the name of a file that is uploaded is the value in the query. -/
structure IsServedAt (folder v : Url) : Prop where
  scheme : v.scheme = folder.scheme
  path : ∃ a front s, folder.body = .path a (front ++ [""]) ∧
    v.body = .path a (front ++ m.endpoint.segments ++ [s]) ∧ UrlPath.textOf? s = some m.name
  query : v.pairs = m.filename.toList.map fun name ↦ ("filename", name)

end Asked

namespace UrlTail

/-- One slash. -/
def slash : UrlTail where
  segments := [""]
  query := none
  ne_nil := List.cons_ne_nil _ _
  isSelf_segments := by simp
  isSelf_query := nofun

end UrlTail

/-! ### The name of an uploaded file -/

/-- **The name of an uploaded file is the value in the query.** -/
theorem Asked.pairs_tail (m : Asked) {v : Url} (h : v.query = m.tail.query) :
    v.pairs = m.filename.toList.map fun name ↦ ("filename", name) := by
  have hquery : m.tail.query = m.filename.map fun name ↦ "filename=" ++ Percent.component name :=
    rfl
  have hself := m.tail.isSelf_query
  rw [hquery] at h hself
  rw [Url.pairs, h]
  cases hfile : m.filename with
  | none => rfl
  | some name =>
    rw [hfile] at hself
    have hq : ("filename=" ++ Percent.component name).toList =
        "filename".toList ++ '=' :: (Percent.component name).toList := by
      rw [String.toList_append]
      rfl
    -- a single pair, with no separator in its value
    have hpiece : Text.splitAt '&' ("filename=" ++ Percent.component name).toList =
        [("filename=" ++ Percent.component name).toList] := by
      refine Text.split_of_forall fun c hc ↦ decide_eq_false ?_
      rintro rfl
      exact absurd (hself _ rfl '&' hc) (by decide)
    have hne : ("filename=" ++ Percent.component name).toList ≠ [] := by
      rw [hq]
      exact List.append_ne_nil_of_right_ne_nil _ (List.cons_ne_nil _ _)
    have hmark : '=' ∉ "filename".toList := by decide
    have hname : formText "filename".toList = "filename" := by decide +kernel
    show formPairs ("filename=" ++ Percent.component name).toList = [("filename", name)]
    rw [formPairs, hpiece, List.filter_singleton, decide_eq_true hne, cond_true, List.map_singleton,
      hq, formPair, Text.cutAt_append_cons hmark]
    show [(formText "filename".toList, formText (Percent.component name).toList)] = _
    rw [hname, formText_component]

/-! ### Where a name leads -/

namespace Url

/-- A folder is the URL itself but for the slashes at the end of its last part, in place of which
there is one. -/
structure HasFolder (u folder : Url) : Prop where
  scheme : folder.scheme = u.scheme
  query : folder.query = none ↔ u.query = none
  fragment : folder.fragment = none ↔ u.fragment = none
  path : u.query = none → u.fragment = none → ∃ a front n,
    u.body = .path a (front ++ List.replicate n "") ∧ folder.body = .path a (front ++ [""])
  body : u.query ≠ none ∨ u.fragment ≠ none → folder.body = u.body

/-- A slash behind an end of a URL makes it a folder. -/
theorem hasFolder_add {u : Url} (e : u.End) : u.HasFolder (e.add .slash) := by
  cases e with
  | fragment f n h =>
    have hsome : u.fragment ≠ none := h ▸ Option.some_ne_none _
    exact ⟨rfl, Iff.rfl, iff_of_false (Option.some_ne_none _) hsome,
      fun _ hnone ↦ absurd hnone hsome, fun _ ↦ rfl⟩
  | query q n hfragment h =>
    have hsome : u.query ≠ none := h ▸ Option.some_ne_none _
    exact ⟨rfl, iff_of_false (Option.some_ne_none _) hsome, Iff.rfl,
      fun hnone ↦ absurd hnone hsome, fun _ ↦ rfl⟩
  | path a front n hfragment hquery h =>
    have hbody : (End.add (.path a front n hfragment hquery h) .slash).body =
        .path a (front ++ [""]) :=
      congrArg (UrlBody.path a) (UrlPath.push_nil false true front)
    exact ⟨rfl, iff_of_true rfl hquery, Iff.rfl, fun _ _ ↦ ⟨a, front, n, h, hbody⟩,
      fun hsome ↦ (hsome.elim (· hquery) (· hfragment)).elim⟩

end Url

namespace Asked

variable {u : Url} (m : Asked)

/-- Where the URL of a request leads to from a folder: to what is documented, unless the folder has
a query or a fragment or the name is dots; then at least to what a path makes of it, or to the path
of the folder. -/
structure LeadsFrom (folder v : Url) : Prop where
  served : m.IsServedAt folder v ↔
    folder.query = none ∧ folder.fragment = none ∧ m.name ≠ "." ∧ m.name ≠ ".."
  landing : folder.query = none → folder.fragment = none → ∃ a front,
    folder.body = .path a (front ++ [""]) ∧ v.body = .path a (front ++ m.landing)
  body : folder.query ≠ none ∨ folder.fragment ≠ none → v.body = folder.body

/-- No documented URL has the path of its folder. -/
theorem IsServedAt.body_ne {m : Asked} {folder v : Url} (h : m.IsServedAt folder v) :
    v.body ≠ folder.body := by
  obtain ⟨-, ⟨a, front, s, hfolder, hv, -⟩, -⟩ := h
  rw [hfolder, hv]
  intro hbody
  obtain ⟨-, hsegments⟩ := UrlBody.path.inj hbody
  have hlength := congrArg List.length hsegments
  have hpos : 0 < m.endpoint.segments.length := List.length_pos_iff.2 m.endpoint.segments_ne_nil
  simp only [List.length_append, List.length_singleton] at hlength
  omega

/-- Dots do not become a segment that is read as dots. -/
theorem ne_dots_of_landing {s : String} (h : m.landing = m.endpoint.segments ++ [s])
    (hs : UrlPath.textOf? s = some m.name) : m.name ≠ "." ∧ m.name ≠ ".." := by
  refine ⟨fun hdot ↦ ?_, fun hdots ↦ ?_⟩
  · have hne : m.name ≠ ".." := by
      rw [hdot]
      decide
    rw [landing, if_neg hne, if_pos hdot] at h
    obtain rfl : "" = s := List.singleton_inj.1 (List.append_cancel_left h)
    have hempty : UrlPath.textOf? "" = some "" := Percent.textOf?_component ""
    rw [hempty, hdot] at hs
    exact absurd (Option.some.inj hs) (by decide)
  · rw [landing, if_pos hdots] at h
    have hlength := congrArg List.length h
    have hpos : 0 < m.endpoint.segments.length := List.length_pos_iff.2 m.endpoint.segments_ne_nil
    simp only [List.length_append, List.length_singleton, List.length_dropLast] at hlength
    omega

/-- From the folder of a base, a URL for a name leads where it should. -/
theorem leadsFrom_add (e : u.End) (hslash : e.add .slash = u) : m.LeadsFrom u (e.add m.tail) := by
  cases e with
  | fragment f n h =>
    -- all that comes after the fragment is part of it
    have hsome : u.fragment ≠ none := h ▸ Option.some_ne_none _
    refine ⟨?_, fun _ hnone ↦ absurd hnone hsome, fun _ ↦ rfl⟩
    exact iff_of_false (fun hserved ↦ hserved.body_ne rfl) fun hplain ↦ hsome hplain.2.1
  | query q n hfragment h =>
    -- all that comes after the query is part of it
    have hsome : u.query ≠ none := h ▸ Option.some_ne_none _
    refine ⟨?_, fun hnone ↦ absurd hnone hsome, fun _ ↦ rfl⟩
    exact iff_of_false (fun hserved ↦ hserved.body_ne rfl) fun hplain ↦ hsome hplain.1
  | path a front n hfragment hquery h =>
    have hfolder : u.body = .path a (front ++ [""]) :=
      (congrArg Url.body hslash).symm.trans
      (congrArg (UrlBody.path a) (UrlPath.push_nil false true front))
    have hbody : (Url.End.add (.path a front n hfragment hquery h) m.tail).body =
        .path a (front ++ m.landing) :=
      congrArg (UrlBody.path a) (m.pushAll_tail front)
    refine ⟨⟨?_, ?_⟩, fun _ _ ↦ ⟨a, front, hfolder, hbody⟩, fun hsome ↦ ?_⟩
    · rintro ⟨-, ⟨a', front', s, hfolder', hv, hs⟩, -⟩
      obtain ⟨-, hfront⟩ := UrlBody.path.inj (hfolder.symm.trans hfolder')
      obtain rfl := List.append_cancel_right hfront
      obtain ⟨-, hlanding⟩ := UrlBody.path.inj (hbody.symm.trans hv)
      rw [List.append_assoc] at hlanding
      exact ⟨hquery, hfragment, m.ne_dots_of_landing (List.append_cancel_left hlanding) hs⟩
    · -- any other name lands as itself
      rintro ⟨-, -, hdot, hdots⟩
      have hlanding : m.landing = m.endpoint.segments ++ [Percent.component m.name] := by
        rw [landing, if_neg hdots, if_neg hdot]
      refine ⟨rfl, ⟨a, front, _, hfolder, ?_, Percent.textOf?_component m.name⟩, m.pairs_tail rfl⟩
      rw [hbody, hlanding, List.append_assoc]
    · exact (hsome.elim (· hquery) (· hfragment)).elim

end Asked

/-! ### Targets -/

namespace UrlPath

theorem text_append (front back : List String) :
    text (front ++ back) = text front ++ text back := by
  rw [← String.toList_inj, toList_text_append, String.toList_append]

theorem toList_text_append_singleton (front : List String) (s : String) :
    (text (front ++ [s])).toList = (text front).toList ++ '/' :: s.toList := by
  rw [toList_text_append, toList_text_cons]
  exact congrArg _ (congrArg _ (List.append_nil _))

/-- Texts of paths that differ in the last segment only are as different as the segments. -/
theorem text_append_singleton_inj {front : List String} {s s' : String} :
    text (front ++ [s]) = text (front ++ [s']) ↔ s = s' := by
  refine ⟨fun h ↦ ?_, fun h ↦ h ▸ rfl⟩
  have hlist := congrArg String.toList h
  rw [toList_text_append_singleton, toList_text_append_singleton] at hlist
  exact String.toList_inj.1 (List.cons.inj (List.append_cancel_left hlist)).2

end UrlPath

namespace Url

/-- The target of a request is the path with the query behind it. -/
theorem target_of_path {v : Url} {a : Option Authority} {segments : List String}
    (h : v.body = .path a segments) (hne : segments ≠ []) :
    v.target = UrlPath.text segments ++ marked "?" v.query := by
  rw [target, h]
  dsimp only
  rw [List.isEmpty_eq_false_iff.2 hne, if_neg Bool.false_ne_true]

theorem head?_marked {query : Option String} {c : Char} (hc : c ∈ (marked "?" query).toList.head?) :
    c ∈ ['?'] := by
  cases query with
  | none => cases hc
  | some q =>
    rw [marked, String.toList_append] at hc
    exact List.mem_singleton.2 (Option.some.inj hc).symm

/-- A query is known from its mark and text. -/
theorem marked_injective : Function.Injective (marked "?") := by
  have hne : ∀ q, marked "?" (some q) ≠ "" := fun q h ↦ by
    have hlist := congrArg String.toList h
    rw [marked, String.toList_append] at hlist
    cases hlist
  intro query query' h
  cases query with
  | none =>
    cases query' with
    | none => rfl
    | some q => exact absurd h.symm (hne q)
  | some q =>
    cases query' with
    | none => exact absurd h (hne q)
    | some q' => exact congrArg some ((String.append_right_inj "?").1 h)

/-- What stands before the mark of a query and what stands after it are known from both together. -/
theorem append_marked_inj {front front' : String} {query query' : Option String}
    (h : '?' ∉ front.toList) (h' : '?' ∉ front'.toList) :
    front ++ marked "?" query = front' ++ marked "?" query' ↔ front = front' ∧ query = query' := by
  have hnot : ∀ {cs : List Char}, '?' ∉ cs → ∀ c ∈ cs, c ∉ ['?'] := fun h c hc hmem ↦
    h (List.mem_singleton.1 hmem ▸ hc)
  constructor
  · intro htext
    have hlist := congrArg String.toList htext
    rw [String.toList_append, String.toList_append] at hlist
    have hfront := String.toList_inj.1 <|
      Text.eq_of_append_marked (hnot h) (hnot h') (fun c ↦ head?_marked) (fun c ↦ head?_marked)
      hlist
    subst hfront
    exact ⟨rfl, marked_injective ((String.append_right_inj front).1 htext)⟩
  · rintro ⟨rfl, rfl⟩
    rfl

end Url

namespace Asked

variable {u : Url} (m : Asked)

theorem not_mem_landing : '?' ∉ (UrlPath.text m.landing).toList := by
  have hself : ∀ s ∈ m.landing, ∀ c ∈ s.toList, isSelf c = true := by
    intro s hs c hc
    have hcases : s ∈ m.endpoint.segments ∨ s ∈ ["", Percent.component m.name] := by
      rw [landing] at hs
      split_ifs at hs <;> rw [List.mem_append] at hs
      · exact hs.imp List.mem_of_mem_dropLast fun h ↦
          List.mem_cons.2 (.inl (List.mem_singleton.1 h))
      · exact hs.imp_right fun h ↦ List.mem_cons.2 (.inl (List.mem_singleton.1 h))
      · exact hs.imp_right (List.mem_cons_of_mem "")
    rcases hcases with hs | hs
    · exact (m.endpoint.isSelf_of_mem hs hc).1
    · rw [List.mem_pair] at hs
      obtain rfl | rfl := hs
      · cases hc
      · exact Percent.isSelf_of_mem_component hc
  intro h
  rcases UrlTail.of_mem_toList_text h with hslash | ⟨s, hs, hmem⟩
  · cases hslash
  · exact absurd (hself s hs '?' hmem) (by decide)

/-- The segment of a name that is no step. -/
def shown (name : String) : String := if name = "." then "" else Percent.component name

/-- Names that a path cannot tell apart: they are the same, or each of them is empty or one dot. -/
theorem shown_eq_iff {name name' : String} :
    shown name = shown name' ↔ name = name' ∨ name ∈ ["", "."] ∧ name' ∈ ["", "."] := by
  have hmem : ∀ {name : String}, name ≠ "." → (name ∈ ["", "."] ↔ name = "") := fun h ↦ by simp [h]
  rw [shown, shown]
  split_ifs with hname hname' hname'
  · exact iff_of_true rfl (.inl (hname.trans hname'.symm))
  · rw [eq_comm, Percent.component_eq_empty_iff, hmem hname']
    constructor
    · exact fun h ↦ .inr ⟨by rw [hname]; decide, h⟩
    · rintro (h | h)
      · exact absurd (h ▸ hname) hname'
      · exact h.2
  · rw [Percent.component_eq_empty_iff, hmem hname]
    constructor
    · exact fun h ↦ .inr ⟨h, by rw [hname']; decide⟩
    · rintro (h | h)
      · exact absurd (h ▸ hname') hname
      · exact h.1
  · rw [hmem hname, hmem hname']
    constructor
    · exact fun h ↦ .inl (Percent.component_injective h)
    · rintro (rfl | ⟨rfl, rfl⟩) <;> rfl

/-- Any name other than two dots lands below the endpoint. -/
theorem landing_eq (hdots : m.name ≠ "..") : m.landing = m.endpoint.segments ++ [shown m.name] := by
  rw [landing, if_neg hdots, shown]
  split_ifs <;> rfl

/-- Two dots lead to where no other name does. -/
theorem text_landing_ne {m m' : Asked} (h : m.endpoint = m'.endpoint) (hdots : m.name = "..")
    (hname : m'.name ≠ "..") : UrlPath.text m.landing ≠ UrlPath.text m'.landing := by
  intro htext
  have hsegments := List.dropLast_append_getLast m'.endpoint.segments_ne_nil
  have hlist := congrArg String.toList htext
  rw [landing, if_pos hdots, h, landing_eq m' hname, ← hsegments, List.dropLast_concat,
    UrlPath.toList_text_append_singleton, UrlPath.toList_text_append_singleton,
    UrlPath.toList_text_append_singleton, List.append_assoc] at hlist
  have hnil := (List.cons.inj (List.append_cancel_left hlist)).2
  exact List.append_ne_nil_of_right_ne_nil _ (List.cons_ne_nil _ _) hnil.symm

/-- The landings of two names below one endpoint have the same text only for the same name, or where
both names vanish. -/
theorem text_landing_inj {m m' : Asked} (h : m.endpoint = m'.endpoint) :
    UrlPath.text m.landing = UrlPath.text m'.landing ↔
      m.name = m'.name ∨ m.name ∈ ["", "."] ∧ m'.name ∈ ["", "."] := by
  have hstep : ".." ∉ ["", "."] := by decide
  by_cases hdots : m.name = ".." <;> by_cases hdots' : m'.name = ".."
  · refine iff_of_true ?_ (.inl (hdots.trans hdots'.symm))
    rw [landing, landing, if_pos hdots, if_pos hdots', h]
  · refine iff_of_false (text_landing_ne h hdots hdots') ?_
    rintro (hname | hname)
    · exact hdots' (hname ▸ hdots)
    · exact hstep (hdots ▸ hname.1)
  · refine iff_of_false (fun htext ↦ text_landing_ne h.symm hdots' hdots htext.symm) ?_
    rintro (hname | hname)
    · exact hdots (hname ▸ hdots')
    · exact hstep (hdots' ▸ hname.2)
  · rw [landing_eq m hdots, landing_eq m' hdots', h, UrlPath.text_append_singleton_inj,
      shown_eq_iff]

/-- The query tells the file names apart. -/
theorem query_tail_inj {m m' : Asked} :
    m.tail.query = m'.tail.query ↔ m.filename = m'.filename := by
  have hinj : Function.Injective fun name ↦ "filename=" ++ Percent.component name :=
    fun name name' h ↦
    Percent.component_injective ((String.append_right_inj "filename=").1 h)
  exact (Option.map_injective hinj).eq_iff

/-- What stands behind the base tells the names and the file names apart. -/
theorem text_tail_inj {m m' : Asked} (h : m.endpoint = m'.endpoint) :
    m.tail.text = m'.tail.text ↔ m.filename = m'.filename ∧ m.name = m'.name := by
  have hsegments : UrlPath.text m.tail.segments = UrlPath.text m'.tail.segments ↔
      m.name = m'.name := by
    show UrlPath.text (m.endpoint.segments ++ [_]) = UrlPath.text (m'.endpoint.segments ++ [_]) ↔ _
    rw [h, UrlPath.text_append_singleton_inj]
    exact ⟨Percent.component_injective, congrArg Percent.component⟩
  rw [UrlTail.text, UrlTail.text, Url.append_marked_inj m.tail.not_mem_path m'.tail.not_mem_path,
    hsegments, query_tail_inj, and_comm]

/-- **Which names have one target.** -/
theorem target_add_eq_iff (e : u.End) {m m' : Asked} (h : m.endpoint = m'.endpoint) :
    (e.add m.tail).target = (e.add m'.tail).target ↔ u.fragment ≠ none ∨
      m.filename = m'.filename ∧
        (m.name = m'.name ∨ u.query = none ∧ m.name ∈ ["", "."] ∧ m'.name ∈ ["", "."]) := by
  cases e with
  | fragment f n hf =>
    refine iff_of_true rfl (.inl ?_)
    exact hf ▸ Option.some_ne_none _
  | query q n hfragment hq =>
    -- both go on in the query, and nothing but the text can tell them apart
    have htarget : ∀ t, (Url.End.add (.query q n hfragment hq) t).target =
        ({ u with query := none } : Url).target ++ ("?" ++ (q ++ t.text)) := by
      intro t
      show _ = (_ ++ "") ++ ("?" ++ (q ++ t.text))
      rw [String.append_empty]
      rfl
    rw [htarget, htarget, String.append_right_inj, String.append_right_inj, String.append_right_inj,
      text_tail_inj h]
    simp [hfragment, hq]
  | path a front n hfragment hquery hbody =>
    -- both go on in the path, where only the landings tell them apart
    have htarget : ∀ m : Asked,
        (Url.End.add (.path a front n hfragment hquery hbody) m.tail).target =
        UrlPath.text front ++ (UrlPath.text m.landing ++ Url.marked "?" m.tail.query) := by
      intro m
      have hbody : (Url.End.add (.path a front n hfragment hquery hbody) m.tail).body =
          .path a (front ++ m.landing) := congrArg (UrlBody.path a) (m.pushAll_tail front)
      rw [Url.target_of_path hbody (List.append_ne_nil_of_right_ne_nil front m.landing_ne_nil),
        UrlPath.text_append, String.append_assoc]
      rfl
    rw [htarget, htarget, String.append_right_inj,
      Url.append_marked_inj m.not_mem_landing m'.not_mem_landing, text_landing_inj h,
      query_tail_inj, and_comm]
    simp [hfragment, hquery]

end Asked

namespace RemoteCall

theorem ofList_append_text (s t : String) : String.ofList (s.toList ++ t.toList) = s ++ t := by
  rw [String.ofList_append, String.ofList_toList, String.ofList_toList]

/-- The address of a request for a name is the base without its slashes, and the rest. -/
theorem addressText_of_asked {c : RemoteCall} {m : Asked} (h : c.asked? = some m) (base : String) :
    addressText base c = String.ofList ((withoutSlashes base).toList ++ m.tail.text.toList) := by
  have hpath : ("/" ++ c.path).toList = m.tail.text.toList := by
    have hnil : (UrlPath.text []).toList = [] := rfl
    cases c with
    | content key | deleteFile key | view key | upload id key filename bytes =>
      obtain rfl := Option.some.inj h
      simp [path, filePath, Asked.tail, Endpoint.segments, UrlTail.text, UrlPath.toList_text_cons,
        hnil, Url.marked]
    | submit | listProjects | fetchProject | createProject | deleteProject | renameProject
        | listFiles => cases h
  rw [addressText, String.append_assoc, String.toList_inj.1 hpath, ofList_append_text]

/-- Only slashes are taken off. -/
theorem exists_slashes (base : String) :
    ∃ n, base.toList = (withoutSlashes base).toList ++ Url.slashes n := by
  have hslashes : ∀ c ∈ base.toList.reverse.takeWhile (fun c ↦ c = '/'), c = '/' := by
    intro c hc
    simpa using List.mem_takeWhile_imp hc
  refine ⟨(base.toList.reverse.takeWhile fun c ↦ c = '/').length, ?_⟩
  rw [withoutSlashes, String.toList_ofList, Url.slashes, ← List.reverse_replicate,
    ← List.eq_replicate_of_mem hslashes, ← List.reverse_append, List.takeWhile_append_dropWhile,
    List.reverse_reverse]

theorem isReachable_congr {u v : Url} (h : u.scheme = v.scheme) :
    isReachable u = isReachable v := by
  rw [isReachable, isReachable, h]

/-- Everything that can be reached has a special scheme, and is no file. -/
theorem isSpecial_of_isReachable {u : Url} (hweb : isReachable u = true) :
    Url.isSpecial u.scheme = true ∧ u.scheme ≠ "file" := by
  have hscheme : u.scheme = "http" ∨ u.scheme = "https" := by simpa [isReachable] using hweb
  rcases hscheme with h | h <;> rw [h] <;> decide

/-- A request is sent to where its address leads, if that is in the web and the token can be
sent. -/
theorem request_of_ofText {base : String} {c : RemoteCall} {v : Url}
    (hv : Url.ofText (addressText base c) = .ok v) (token : Option String) : request base token c =
      if isReachable v = false then .error (unsent "no address of the web")
      else if (token.map fun t ↦ "Bearer " ++ t).all fitsHeader = true then
        .ok ⟨c.method, v, token.map fun t ↦ "Bearer " ++ t, c.payload.contentType?, c.payload.bytes⟩
      else .error (unsent "token is no header value") := by
  rw [request, hv]
  simp only [Bool.not_eq_true']

/-- The text of a base with one slash at its end. -/
def folderText (base : String) : String := withoutSlashes base ++ "/"

theorem folderText_eq (base : String) :
    folderText base = String.ofList ((withoutSlashes base).toList ++
      UrlTail.slash.text.toList) := by
  rw [ofList_append_text]
  rfl

/-- A folder is read with nothing but a slash at its end, so whatever follows it is added to its
last part. -/
theorem exists_end_of_folder {base : String} {folder : Url} (hweb : isReachable folder = true)
    (hfolder : Url.ofText (folderText base) = .ok folder) :
    ∃ e : folder.End, e.add .slash = folder ∧
      ∀ c m, c.asked? = some m → Url.ofText (addressText base c) = .ok (e.add m.tail) := by
  obtain ⟨hspecial, hfile⟩ := isSpecial_of_isReachable hweb
  have hu : Url.ofText (String.ofList ((withoutSlashes base).toList ++ Url.slashes 1)) =
      .ok folder := by
    rw [← hfolder, folderText_eq]
    rfl
  have hend : ∀ c ∈ ((withoutSlashes base).toList ++ Url.slashes 1).getLast?,
      Url.isEdge c = false := by
    have hne : Url.slashes 1 ≠ [] := List.cons_ne_nil _ _
    rw [List.getLast?_append_of_ne_nil _ hne]
    rintro c ⟨⟩
    decide
  obtain ⟨e, he⟩ := Url.exists_end hu hspecial hfile hend
  refine ⟨e, ?_, fun c m hm ↦ ?_⟩
  · rw [folderText_eq, he] at hfolder
    exact Except.ok.inj hfolder
  · rw [addressText_of_asked hm, he]

/-- Without a token nothing hinders a request, and with one it goes to the same place. -/
theorem exists_end_of_requests {base : String} {folder : Url} (hweb : isReachable folder = true)
    (hfolder : Url.ofText (folderText base) = .ok folder) :
    ∃ e : folder.End, e.add .slash = folder ∧
      ∀ c m, c.asked? = some m → (∃ q, request base none c = .ok q) ∧
        ∀ token q, request base token c = .ok q → q.method = c.method ∧ q.url = e.add m.tail := by
  obtain ⟨e, hslash, haddress⟩ := exists_end_of_folder hweb hfolder
  have hadded : ∀ t, ¬isReachable (e.add t) = false := fun t ↦ by
    have hscheme : (e.add t).scheme = folder.scheme := by cases e <;> rfl
    rw [isReachable_congr hscheme, hweb]
    decide
  refine ⟨e, hslash, fun c m hm ↦ ⟨?_, fun token q hq ↦ ?_⟩⟩
  · rw [request_of_ofText (haddress c m hm), if_neg (hadded _)]
    exact ⟨_, rfl⟩
  · rw [request_of_ofText (haddress c m hm), if_neg (hadded _)] at hq
    split_ifs at hq
    obtain rfl := Except.ok.inj hq
    exact ⟨rfl, rfl⟩

section

variable {base : String} {u : Url} (hbase : Url.ofText base = .ok u)
include hbase

/-- A base is read as a text of which only slashes have been taken off. -/
theorem exists_reading : ∃ n, base.toList = (withoutSlashes base).toList ++ Url.slashes n ∧
    Url.ofText (String.ofList ((withoutSlashes base).toList ++ Url.slashes n)) = .ok u := by
  obtain ⟨n, hn⟩ := exists_slashes base
  refine ⟨n, hn, ?_⟩
  rwa [← hn, String.ofList_toList]

/-- What stands behind the base does not change its scheme. -/
theorem scheme_eq {t : UrlTail} {v : Url}
    (hv : Url.ofText (String.ofList ((withoutSlashes base).toList ++ t.text.toList)) = .ok v) :
    v.scheme = u.scheme := by
  obtain ⟨n, -, hu⟩ := exists_reading hbase
  exact Url.scheme_of_follows hu hv

/-- **A base has a folder**, unless an edge of it would get into the middle. -/
theorem exists_folder (hweb : isReachable u = true)
    (hend : ∀ c ∈ base.toList.getLast?, Url.isEdge c = false) :
    ∃ folder, Url.ofText (folderText base) = .ok folder ∧ u.HasFolder folder := by
  obtain ⟨hspecial, hfile⟩ := isSpecial_of_isReachable hweb
  obtain ⟨n, hn, hu⟩ := exists_reading hbase
  obtain ⟨e, he⟩ := Url.exists_end hu hspecial hfile (hn ▸ hend)
  exact ⟨e.add .slash, by rw [folderText_eq, he], Url.hasFolder_add e⟩

/-- **Nothing is sent** outside of the web, or if there is no folder. -/
theorem request_of_no_folder
    (hnone : isReachable u = false ∨ ∃ e, Url.ofText (folderText base) = .error e)
    {c : RemoteCall} {m : Asked} (hm : c.asked? = some m) (token : Option String) :
    ∃ reason, request base token c = .error (unsent reason) := by
  cases hv : Url.ofText (addressText base c) with
  | error e => exact ⟨e.message, by rw [request, hv]⟩
  | ok v =>
    rw [addressText_of_asked hm] at hv
    have hscheme : isReachable v = isReachable u := isReachable_congr (scheme_eq hbase hv)
    have hout : isReachable v = false := by
      rcases hnone with hout | ⟨e, he⟩
      · exact hscheme.trans hout
      · by_contra hweb
        rw [hscheme, Bool.not_eq_false] at hweb
        obtain ⟨hspecial, hfile⟩ := isSpecial_of_isReachable hweb
        obtain ⟨n, -, hu⟩ := exists_reading hbase
        obtain ⟨folder, hfolder⟩ := Url.exists_ofText_of_tail hu hspecial hfile hv .slash
        rw [folderText_eq, hfolder] at he
        cases he
    rw [← addressText_of_asked hm] at hv
    exact ⟨_, by rw [request_of_ofText hv, if_pos hout]⟩

/-- **A request leads to what it asks for by name,** and to nothing else. -/
theorem request_leads :
    ((∀ c ∈ base.toList.getLast?, Url.isEdge c = false) → isReachable u = true →
      ∃ folder, Url.ofText (folderText base) = .ok folder ∧ u.HasFolder folder) ∧
    ((isReachable u = false ∨ ∃ e, Url.ofText (folderText base) = .error e) →
      ∀ c m token, c.asked? = some m → ∃ reason, request base token c = .error (unsent reason)) ∧
    ∀ folder, isReachable u = true → Url.ofText (folderText base) = .ok folder →
      ∀ c m, c.asked? = some m → (∃ q, request base none c = .ok q) ∧
        ∀ token q, request base token c = .ok q → q.method = c.method ∧ m.LeadsFrom folder q.url ∧
          ∀ c' m' token' q', c'.asked? = some m' → m.endpoint = m'.endpoint →
          request base token' c' = .ok q' →
            (q.url.target = q'.url.target ↔ folder.fragment ≠ none ∨ m.filename = m'.filename ∧
              (m.name = m'.name ∨ folder.query = none ∧ m.name ∈ ["", "."] ∧
                m'.name ∈ ["", "."])) := by
  refine ⟨fun hend hweb ↦ exists_folder hbase hweb hend,
    fun hnone c m token hm ↦ request_of_no_folder hbase hnone hm token,
    fun folder hweb hfolder ↦ ?_⟩
  have hreach : isReachable folder = true := by
    rw [isReachable_congr (scheme_eq hbase (folderText_eq base ▸ hfolder)), hweb]
  obtain ⟨e, hslash, hsent⟩ := exists_end_of_requests hreach hfolder
  refine fun c m hm ↦ ⟨(hsent c m hm).1, fun token q hq ↦ ?_⟩
  obtain ⟨hmethod, hurl⟩ := (hsent c m hm).2 token q hq
  refine ⟨hmethod, hurl ▸ m.leadsFrom_add e hslash, fun c' m' token' q' hm' hendpoint hq' ↦ ?_⟩
  obtain ⟨-, hurl'⟩ := (hsent c' m' hm').2 token' q' hq'
  rw [hurl, hurl', Asked.target_add_eq_iff e hendpoint]

end

/-- The base `http://h/p/`. -/
def folderBase : Url := ⟨"http", .path (some ⟨"", none, .name "h", none⟩) ["p", ""], none, none⟩

/-- Two dots delete the folder above the files, and one dot is the file without a name; a slash is
escaped. -/
theorem request_leads_dots :
    Url.ofText "http://h/p/" = .ok folderBase ∧ folderBase.HasFolder folderBase ∧
      (∃ q, request "http://h/p/" none (.deleteFile "..") = .ok q ∧ q.method = .delete ∧
        q.url.body = .path (some ⟨"", none, .name "h", none⟩) ["p", ""]) ∧
      (∃ q q', request "http://h/p/" none (.content ".") = .ok q ∧
        request "http://h/p/" none (.content "") = .ok q' ∧ q.url.target = q'.url.target) ∧
      ∃ q, request "http://h/p/" none (.content "a/b") = .ok q ∧
        (⟨.files, "a/b", none⟩ : Asked).IsServedAt folderBase q.url := by
  have hbase : Url.ofText "http://h/p/" = .ok folderBase := by decide +kernel
  have hend : ∀ c ∈ "http://h/p/".toList.getLast?, Url.isEdge c = false := by
    rintro c ⟨⟩
    decide
  obtain ⟨hexists, -, hall⟩ := request_leads hbase
  obtain ⟨folder, hfolder, hhas⟩ := hexists hend rfl
  obtain rfl : folderBase = folder := Except.ok.inj (hbase.symm.trans hfolder)
  have hleads := hall folderBase rfl hfolder
  refine ⟨hbase, hhas, ?_, ?_, ?_⟩
  · obtain ⟨⟨q, hq⟩, hsent⟩ := hleads (.deleteFile "..") _ rfl
    obtain ⟨hmethod, hlead, -⟩ := hsent none q hq
    obtain ⟨a, front, hfront, hbody⟩ := hlead.landing rfl rfl
    obtain ⟨rfl, hp⟩ := UrlBody.path.inj hfront
    obtain rfl : ["p"] = front := List.append_cancel_right hp
    exact ⟨q, hq, hmethod, hbody⟩
  · obtain ⟨⟨q, hq⟩, hsent⟩ := hleads (.content ".") _ rfl
    obtain ⟨⟨q', hq'⟩, -⟩ := hleads (.content "") _ rfl
    obtain ⟨-, -, htargets⟩ := hsent none q hq
    have hnameless : "." ∈ ["", "."] ∧ "" ∈ ["", "."] := by decide
    have htarget := (htargets _ ⟨.files, "", none⟩ none q' rfl rfl hq').2
      (.inr ⟨rfl, .inr ⟨rfl, hnameless⟩⟩)
    exact ⟨q, q', hq, hq', htarget⟩
  · obtain ⟨⟨q, hq⟩, hsent⟩ := hleads (.content "a/b") _ rfl
    obtain ⟨-, hlead, -⟩ := hsent none q hq
    exact ⟨q, hq, hlead.served.2 ⟨rfl, rfl, by decide, by decide⟩⟩

end RemoteCall

end GraphSession
