import GraphSession.Proofs.Text.Cutting
import GraphSession.Proofs.Url.Segments
import GraphSession.Url.Reader

/-!
# Addresses that go on

An address is put together as a text: a base without the slashes at its end, then segments with a
slash before each. Read as a whole, this is the URL of the base with something added to its last
part (`Url.exists_end`): to the fragment if the base has one, to the query if it has one, and only
otherwise to the path.

**Edges.** Blanks and controls at the end of a text are dropped by reading it, but not from the
middle of a longer text. So a base that ends in one is not what it would be alone once something
follows, and may then be no address at all; its scheme stays (`Url.scheme_of_follows`), and what
follows makes no difference (`Url.exists_ofText_of_tail`).
-/

namespace GraphSession

/-! ### Characters that need no escape -/

/-- A character that stands for itself in every part of an address. -/
def isSelf (c : Char) : Bool :=
  c.toNat < 0x80 && (Percent.unreserved (UInt8.ofNat c.toNat) || c = '%' || c = '=')

/-- A character that stands for itself in a query and in a fragment, and in a path if it is no mark
there. -/
def isSelfOrMark (c : Char) : Bool := isSelf c || c = '/' || c = '?'

theorem isSelfOrMark_of_isSelf {c : Char} (h : isSelf c = true) : isSelfOrMark c = true := by
  simp [isSelfOrMark, h]

theorem lt_of_isSelf {c : Char} (h : isSelf c = true) : c.toNat < 0x80 := by
  rw [isSelf, Bool.and_eq_true] at h
  exact of_decide_eq_true h.1

theorem lt_of_isSelfOrMark {c : Char} (h : isSelfOrMark c = true) : c.toNat < 0x80 := by
  simp only [isSelfOrMark, Bool.or_eq_true, decide_eq_true_eq] at h
  obtain (h | rfl) | rfl := h
  · exact lt_of_isSelf h
  · decide
  · decide

/-- What holds of the first characters holds of all characters of ASCII. -/
theorem forall_ascii {P : Char → Prop} (h : ∀ n < 0x80, P (Char.ofNat n)) (c : Char)
    (hc : c.toNat < 0x80) :
    P c := by
  have hchar := h c.toNat hc
  rwa [Char.ofNat_toNat] at hchar

/-- A character that stands for itself or is a mark stays in a query and in a fragment as it is. -/
theorem isSelfOrMark_spec (c : Char) (h : isSelfOrMark c = true) :
    (Url.isEdge c = false ∧ c ∉ ['\t', '\n', '\r', '#']) ∧
    Url.fragmentStands (UInt8.ofNat c.toNat) = true ∧
      ∀ special, Url.queryStands special (UInt8.ofNat c.toNat) = true := by
  have hascii := lt_of_isSelfOrMark h
  revert h
  revert c
  exact forall_ascii (by decide +kernel)

/-- A character that stands for itself stays in a path as it is, and cuts nothing. -/
theorem isSelf_spec (c : Char) (h : isSelf c = true) :
    UrlPath.stands (UInt8.ofNat c.toNat) = true ∧ c ∉ ['/', '\\', '?'] := by
  have hascii := lt_of_isSelf h
  revert h
  revert c
  exact forall_ascii (by decide +kernel)

theorem Percent.encodeChars_append (keeps : UInt8 → Bool) (cs cs' : List Char) :
    encodeChars keeps (cs ++ cs') = encodeChars keeps cs ++ encodeChars keeps cs' := by
  rw [encodeChars, encode_append, encode, List.flatMap_append]
  rfl

/-- Characters that stand for themselves are encoded as they are. -/
theorem Percent.encodeChars_of_forall {keeps : UInt8 → Bool} {cs : List Char}
    (h : ∀ c ∈ cs, c.toNat < 0x80 ∧ keeps (UInt8.ofNat c.toNat) = true) :
    encodeChars keeps cs = cs := by
  induction cs with
  | nil => rfl
  | cons c cs ih =>
    obtain ⟨⟨hascii, hkeeps⟩, hcs⟩ := List.forall_mem_cons.1 h
    have hbyte : (UInt8.ofNat c.toNat).toNat = c.toNat := by
      rw [UInt8.toNat_ofNat', Nat.mod_eq_of_lt (by omega)]
    have hone : encodeChars keeps [c] = [c] := by
      rw [encodeChars, encode_ascii hascii, encode, List.flatMap_singleton, if_pos hkeeps, hbyte,
        Char.ofNat_toNat]
    rw [← List.singleton_append, encodeChars_append, hone, ih hcs]

/-! ### Texts with something added -/

namespace Text

variable {p : Char → Bool} {back : List Char}

/-- A run of characters goes no further than what does not belong to it. -/
theorem dropWhile_append_of_stop (h : ∀ c ∈ back.head?, p c = false) (front : List Char) :
    (front ++ back).dropWhile p = front.dropWhile p ++ back := by
  have hback : back.dropWhile p = back := dropWhile_append_of_head? (List.forall_mem_nil _) h
  rw [List.dropWhile_append, hback]
  split_ifs with hnil
  · rw [List.isEmpty_iff.1 hnil, List.nil_append]
  · rfl

theorem takeWhile_append_of_stop (h : ∀ c ∈ back.head?, p c = false) (front : List Char) :
    (front ++ back).takeWhile p = front.takeWhile p := by
  have hback : back.takeWhile p = [] := takeWhile_append_of_head? (List.forall_mem_nil _) h
  rw [List.takeWhile_append, hback, List.append_nil]
  split_ifs with hall
  · exact (List.IsPrefix.eq_of_length (List.takeWhile_prefix p) hall).symm
  · rfl

/-- Breaking a text stops where it would without what follows, when that begins with a stop. -/
theorem breakAt_append_of_stop {stop : Char → Bool} (h : ∀ c ∈ back.head?, stop c = true)
    (front : List Char) :
    breakAt stop (front ++ back) = ((breakAt stop front).1, (breakAt stop front).2 ++ back) := by
  have hback : ∀ c ∈ back.head?, (!stop c) = false := fun c hc ↦ by rw [h c hc, Bool.not_true]
  rw [breakAt, breakAt, List.span_eq_takeWhile_dropWhile, List.span_eq_takeWhile_dropWhile,
    takeWhile_append_of_stop hback, dropWhile_append_of_stop hback]

theorem cutAt_of_not_mem {sep : Char} {cs : List Char} (h : sep ∉ cs) :
    cutAt sep cs = (cs, none) := by
  have hall : ∀ c ∈ cs, (!decide (c = sep)) = true := fun c hc ↦ by simp [ne_of_mem_of_not_mem hc h]
  rw [cutAt, breakAt, List.span_eq_takeWhile_dropWhile, List.takeWhile_eq_self_iff.2 hall,
    List.dropWhile_eq_nil_iff.2 hall]

end Text

namespace Url

/-- Some slashes. -/
def slashes (n : Nat) : List Char := List.replicate n '/'

/-- Whether a character is left where it is. -/
def shows (c : Char) : Bool := c ≠ '\t' && c ≠ '\n' && c ≠ '\r'

/-- What is dropped at the ends of an address is not dropped from the middle. -/
theorem clean_append {front back : List Char} (hback : ∀ c ∈ back.head?, isEdge c = false)
    (hend : ∀ c ∈ (front ++ back).getLast?, isEdge c = false) :
    clean (front ++ back) = (front.dropWhile isEdge).filter shows ++ back.filter shows := by
  have hlast : ∀ c ∈ (front.dropWhile isEdge ++ back).reverse.head?, isEdge c = false := by
    intro c hc
    refine hend c ?_
    rw [← List.takeWhile_append_dropWhile (p := isEdge) (l := front), List.append_assoc,
      List.getLast?_append]
    rw [List.head?_reverse] at hc
    rw [hc]
    rfl
  have hinner : ((front ++ back).dropWhile isEdge).reverse.dropWhile isEdge =
      (front.dropWhile isEdge ++ back).reverse := by
    rw [Text.dropWhile_append_of_stop hback]
    exact Text.dropWhile_append_of_head? (List.forall_mem_nil _) hlast
  rw [clean, hinner, List.reverse_reverse, List.filter_append]
  rfl

theorem isSchemeChar_of_isAlpha {c : Char} (h : c.isAlpha = true) : isSchemeChar c = true := by
  simp [isSchemeChar, Char.isAlphanum, h]

/-- The scheme is what stands before the first colon, if it begins with a letter and is made of the
right characters. -/
theorem splitScheme?_eq_some_iff {cs rest : List Char} {scheme : String} :
    splitScheme? cs = some (scheme, rest) ↔ ∃ c s, cs = c :: s ++ ':' :: rest ∧ c.isAlpha = true ∧
      (∀ d ∈ c :: s, isSchemeChar d = true) ∧
      scheme = String.ofList ((c :: s).map Char.toLower) := by
  constructor
  · intro h
    rcases cs with _ | ⟨c, cs⟩
    · cases h
    rw [splitScheme?, List.span_eq_takeWhile_dropWhile] at h
    split_ifs at h with halpha
    -- the first character is one of the scheme
    have hfirst : (c :: cs).takeWhile isSchemeChar = c :: cs.takeWhile isSchemeChar :=
      List.takeWhile_cons_of_pos (isSchemeChar_of_isAlpha halpha)
    split at h
    · rename_i s rest' heq
      obtain ⟨rfl, rfl⟩ := Prod.mk.inj (Option.some.inj h)
      obtain ⟨rfl, hrest⟩ := Prod.mk.inj heq
      refine ⟨c, cs.takeWhile isSchemeChar, ?_, halpha, ?_, by rw [hfirst]⟩
      · rw [← hfirst, ← hrest, List.takeWhile_append_dropWhile]
      · rw [← hfirst]
        exact fun d hd ↦ List.mem_takeWhile_imp hd
    · cases h
  · rintro ⟨c, s, rfl, halpha, hall, rfl⟩
    have hcolon : ∀ d ∈ (':' :: rest).head?, isSchemeChar d = false := by
      rintro d ⟨⟩
      rfl
    have hspan : (c :: s ++ ':' :: rest).span isSchemeChar = (c :: s, ':' :: rest) := by
      rw [List.span_eq_takeWhile_dropWhile, Text.takeWhile_append_of_head? hall hcolon,
        Text.dropWhile_append_of_head? hall hcolon]
    rw [List.cons_append] at hspan ⊢
    rw [splitScheme?, if_pos halpha, hspan]
    rfl

/-- The scheme is told before any slash. -/
theorem splitScheme?_append {front rest : List Char} {n : Nat} {scheme : String}
    (h : splitScheme? (front ++ slashes n) = some (scheme, rest)) :
    ∃ r, rest = r ++ slashes n ∧ ∀ back, splitScheme? (front ++ back) =
      some (scheme, r ++ back) := by
  obtain ⟨d, s, hs, halpha, hall, rfl⟩ := splitScheme?_eq_some_iff.1 h
  have hcolon : ':' ∉ slashes n := fun hmem ↦ absurd (List.eq_of_mem_replicate hmem) (by decide)
  rcases List.append_eq_append_iff.1 hs with ⟨a, -, ha⟩ | ⟨r, rfl, hr⟩
  · exact absurd (ha ▸ List.mem_append_right a List.mem_cons_self) hcolon
  · rcases r with _ | ⟨c, r⟩
    · rw [List.nil_append] at hr
      exact absurd (hr ▸ List.mem_cons_self) hcolon
    · obtain ⟨rfl, rfl⟩ := List.cons.inj hr
      refine ⟨r, rfl, fun back ↦ splitScheme?_eq_some_iff.2 ⟨d, s, ?_, halpha, hall, rfl⟩⟩
      rw [List.append_assoc]
      rfl

/-- A part of an address as it is kept. -/
def coded (stands : UInt8 → Bool) (cs : List Char) : String :=
  String.ofList (Percent.encodeChars stands cs)

/-- **An address is read part by part.** -/
theorem ofText_eq_ok_iff {s scheme : String} {rest before body : List Char}
    {fragment query : Option (List Char)} {u : Url}
    (hscheme : splitScheme? (clean s.toList) = some (scheme, rest))
    (hfragment : Text.cutAt '#' rest = (before, fragment))
    (hquery : Text.cutAt '?' before = (body, query)) :
    ofText s = .ok u ↔ UrlBody.ofChars scheme (query.isNone && fragment.isNone) body = .ok u.body ∧
      u.scheme = scheme ∧ u.query = query.map (coded (queryStands (isSpecial scheme))) ∧
      u.fragment = fragment.map (coded fragmentStands) := by
  rw [ofText, hscheme]
  dsimp only
  rw [hfragment]
  dsimp only
  rw [hquery]
  dsimp only
  cases UrlBody.ofChars scheme (query.isNone && fragment.isNone) body with
  | error e => exact iff_of_false nofun fun h ↦ nomatch h.1
  | ok b =>
    constructor
    · intro h
      obtain rfl := Except.ok.inj h
      exact ⟨rfl, rfl, rfl, rfl⟩
    · rintro ⟨hbody, rfl, hquery, hfragment⟩
      obtain rfl := Except.ok.inj hbody
      show Except.ok (Url.mk u.scheme u.body (query.map (coded _)) (fragment.map (coded _))) = .ok u
      rw [← hquery, ← hfragment]

/-- Only its body can be wrong with an address that has a scheme. -/
theorem exists_ofText {s scheme : String} {rest before body : List Char}
    {fragment query : Option (List Char)} {b : UrlBody}
    (hscheme : splitScheme? (clean s.toList) = some (scheme, rest))
    (hfragment : Text.cutAt '#' rest = (before, fragment))
    (hquery : Text.cutAt '?' before = (body, query))
    (hbody : UrlBody.ofChars scheme (query.isNone && fragment.isNone) body = .ok b) :
    ∃ u, ofText s = .ok u :=
  ⟨⟨scheme, b, _, _⟩, (ofText_eq_ok_iff hscheme hfragment hquery).2 ⟨hbody, rfl, rfl, rfl⟩⟩

end Url

/-! ### Authorities -/

namespace Authority

variable {scheme : String} (hspecial : Url.isSpecial scheme = true)
include hspecial

theorem ofChars_nil (alone : Bool) : ofChars scheme alone [] = .error .emptyHost := by
  simp [ofChars, splitUser, splitHost, hspecial]

/-- An authority in a scheme of the web is read in the same way whether anything follows it or
not. -/
theorem ofChars_alone (alone alone' : Bool) (cs : List Char) :
    ofChars scheme alone cs = ofChars scheme alone' cs := by
  have hfalse : ∀ alone, ofChars scheme alone cs = ofChars scheme false cs := by
    intro alone
    rw [ofChars, ofChars]
    rcases splitUser cs with ⟨user, hostPort⟩
    by_cases hempty : user = some [] ∧ hostPort = []
    · obtain ⟨rfl, rfl⟩ := hempty
      simp [splitHost, hspecial]
    · have hnot : ∀ alone : Bool, ¬(user = some [] ∧ hostPort = [] ∧ alone = false) := fun alone h ↦
        hempty ⟨h.1, h.2.1⟩
      dsimp only
      rw [if_neg (hnot alone), if_neg (hnot false)]
  rw [hfalse alone, hfalse alone']

end Authority

/-! ### Paths -/

namespace UrlPath

/-- The segments in a text, encoded. -/
def pieces (cs : List Char) : List (List Char) :=
  (Text.split (fun c ↦ c = '/' || (true && c = '\\')) cs).map (Percent.encodeChars stands)

theorem pieces_ne_nil (cs : List Char) : pieces cs ≠ [] := by
  rw [pieces, ne_eq, List.map_eq_nil_iff]
  exact Text.split_ne_nil _ cs

/-- A slash separates the pieces of a path. -/
theorem pieces_append (front back : List Char) :
    pieces (front ++ '/' :: back) = pieces front ++ pieces back := by
  rw [pieces, Text.split_append_cons rfl, List.map_append]
  rfl

theorem pieces_slashes (n : Nat) : pieces (Url.slashes n) = List.replicate (n + 1) [] := by
  induction n with
  | zero => rfl
  | succ n ih =>
    have hsplit : Url.slashes (n + 1) = [] ++ '/' :: Url.slashes n := rfl
    rw [hsplit, pieces_append, ih]
    rfl

/-- The pieces of a front are taken in before those of the rest. -/
theorem pushAll_append (files : Bool) (segments : List String) (front : List (List Char))
    {back : List (List Char)} (h : back ≠ []) : pushAll files segments (front ++ back) =
      pushAll files (front.foldl (push files false) segments) back := by
  induction front generalizing segments with
  | nil => rfl
  | cons s front ih =>
    rw [List.cons_append, List.foldl_cons, ← ih]
    obtain ⟨t, rest, ht⟩ := List.exists_cons_of_ne_nil (List.append_ne_nil_of_right_ne_nil front h)
    rw [ht, pushAll]
    exact nofun

/-- A segment at the end of a path and one before a slash come to the same but for the slash. -/
theorem push_last (segments : List String) (s : List Char) : ∃ n,
    push false true segments s = push false false segments s ++ List.replicate n "" := by
  by_cases hdouble : isDoubleDot s = true
  · rw [push, push, if_pos hdouble, if_pos hdouble]
    exact ⟨1, rfl⟩
  by_cases hsingle : isSingleDot s = true
  · rw [push, push, if_neg hdouble, if_neg hdouble, if_pos hsingle, if_pos hsingle]
    exact ⟨1, rfl⟩
  · rw [push, push, if_neg hdouble, if_neg hdouble, if_neg hsingle, if_neg hsingle]
    exact ⟨0, (List.append_nil _).symm⟩

theorem push_nil (files last : Bool) (segments : List String) :
    push files last segments [] = segments ++ [""] := by
  have hkept : kept files segments [] = "" := kept_eq (Bool.and_false _)
  have hdouble : ¬isDoubleDot [] = true := by decide
  have hsingle : ¬isSingleDot [] = true := by decide
  rw [push, if_neg hdouble, if_neg hsingle, hkept]

/-- Empty pieces are taken in as empty segments. -/
theorem pushAll_replicate (files : Bool) (segments : List String) (n : Nat) :
    pushAll files segments (List.replicate n []) = segments ++ List.replicate n "" := by
  induction n generalizing segments with
  | zero => exact (List.append_nil segments).symm
  | succ n ih =>
    cases n with
    | zero => exact push_nil files true segments
    | succ n =>
      show pushAll files (push files false segments []) (List.replicate (n + 1) []) = _
      rw [push_nil, ih, List.append_assoc]
      rfl

/-- **What a path is before more of it comes.** -/
theorem exists_front (cs : List Char) :
    ∃ front, (∃ n, ofChars false true cs = front ++ List.replicate n "") ∧
    ∀ rest, ofChars false true (cs ++ '/' :: rest) = pushAll false front (pieces rest) := by
  refine ⟨(pieces cs).foldl (push false false) [], ?_, fun rest ↦ ?_⟩
  · show ∃ n, pushAll false [] (pieces cs) = _
    obtain hnil | ⟨front, last, hcs⟩ := List.eq_nil_or_concat (pieces cs)
    · exact absurd hnil (pieces_ne_nil cs)
    · rw [hcs, List.concat_eq_append, pushAll_append _ _ _ (List.cons_ne_nil _ _),
        List.foldl_append]
      exact push_last _ last
  · show pushAll false [] (pieces (cs ++ '/' :: rest)) = _
    rw [pieces_append, pushAll_append _ _ _ (pieces_ne_nil rest)]

end UrlPath

namespace UrlBody

/-- The same with the slash that may be in front of a path. -/
theorem exists_front (cs : List Char) :
    ∃ front, (∃ n, segmentsAfter true cs = front ++ List.replicate n "") ∧
    ∀ rest, segmentsAfter true (cs ++ '/' :: rest) =
      UrlPath.pushAll false front (UrlPath.pieces rest) := by
  cases cs with
  | nil => exact ⟨[], ⟨1, rfl⟩, fun rest ↦ rfl⟩
  | cons c cs =>
    by_cases hslash : c = '/' ∨ (true = true ∧ c = '\\')
    · obtain ⟨front, hfront, hrest⟩ := UrlPath.exists_front cs
      refine ⟨front, ?_, fun rest ↦ ?_⟩
      · rwa [segmentsAfter, if_pos hslash]
      · rw [List.cons_append, segmentsAfter, if_pos hslash, hrest]
    · obtain ⟨front, hfront, hrest⟩ := UrlPath.exists_front (c :: cs)
      refine ⟨front, ?_, fun rest ↦ ?_⟩
      · rwa [segmentsAfter, if_neg hslash]
      · rw [List.cons_append, segmentsAfter, if_neg hslash, ← List.cons_append, hrest]

variable {scheme : String} (hspecial : Url.isSpecial scheme = true) (hfile : scheme ≠ "file")
include hspecial hfile

/-- An address with a special scheme has an authority, however many slashes there are before it. -/
theorem ofChars_special (alone : Bool) (cs : List Char) :
    ofChars scheme alone cs = withAuthority scheme alone isSlash (cs.dropWhile isSlash) := by
  rw [ofChars, if_neg hfile, if_pos hspecial]

omit hfile in
/-- The authority is over at the first slash, so it does not depend on what comes then. -/
theorem withAuthority_append (alone : Bool) (front : List Char) {back : List Char}
    (hback : ∀ c ∈ back.head?, isSlash c = true) :
    withAuthority scheme alone isSlash (front ++ back) =
      (Authority.ofChars scheme false (Text.breakAt isSlash front).1).map fun r ↦
        .path (some r.1) (segmentsAfter true (r.2 ++ (Text.breakAt isSlash front).2 ++ back)) := by
  rw [withAuthority, Text.breakAt_append_of_stop hback]
  dsimp only
  rw [Authority.ofChars_alone hspecial _ false, hspecial]
  cases Authority.ofChars scheme false (Text.breakAt isSlash front).1 with
  | error e => rfl
  | ok r =>
    show Except.ok (path (some r.1) (segmentsAfter true (r.2 ++ (_ ++ back)))) = _
    rw [← List.append_assoc]
    rfl

omit hspecial hfile in
theorem isSlash_of_mem_slashes {n : Nat} {c : Char} (hc : c ∈ Url.slashes n) :
    isSlash c = true := by
  rw [List.eq_of_mem_replicate hc]
  rfl

omit hspecial hfile in
/-- What begins with a slash does not go on with an authority. -/
theorem isSlash_of_mem_head? (rest : List Char) : ∀ c ∈ ('/' :: rest).head?, isSlash c = true := by
  rintro c ⟨⟩
  rfl

/-- Between the scheme and the slashes at the end there is a host. -/
theorem isEmpty_dropWhile {front : List Char} {n : Nat} {alone : Bool} {b : UrlBody}
    (h : ofChars scheme alone (front ++ Url.slashes n) = .ok b) :
    (front.dropWhile isSlash).isEmpty = false := by
  by_contra hempty
  rw [Bool.not_eq_false] at hempty
  have hnone : (Url.slashes n).dropWhile isSlash = [] :=
    List.dropWhile_eq_nil_iff.2 fun c ↦ isSlash_of_mem_slashes
  rw [ofChars_special hspecial hfile, List.dropWhile_append, if_pos hempty, hnone] at h
  simp [withAuthority, Text.breakAt, Authority.ofChars_nil hspecial] at h

section

variable {front : List Char} (hfront : (front.dropWhile isSlash).isEmpty = false)
include hfront

/-- What follows an authority and begins with a slash is part of the path. -/
theorem ofChars_eq_map (alone : Bool) {back : List Char}
    (hback : ∀ c ∈ back.head?, isSlash c = true) :
    ofChars scheme alone (front ++ back) =
      (Authority.ofChars scheme false (Text.breakAt isSlash (front.dropWhile isSlash)).1).map
        fun r ↦
        .path (some r.1) (segmentsAfter true
          (r.2 ++ (Text.breakAt isSlash (front.dropWhile isSlash)).2 ++ back)) := by
  rw [ofChars_special hspecial hfile, List.dropWhile_append, hfront, if_neg Bool.false_ne_true,
    withAuthority_append hspecial _ _ hback]

/-- Whether there is a URL at all is told before the first slash of what is added. -/
theorem exists_ofChars {alone : Bool} {rest : List Char} {b : UrlBody}
    (h : ofChars scheme alone (front ++ '/' :: rest) = .ok b) (alone' : Bool) (rest' : List Char) :
    ∃ b', ofChars scheme alone' (front ++ '/' :: rest') = .ok b' := by
  rw [ofChars_eq_map hspecial hfile hfront alone (isSlash_of_mem_head? rest)] at h
  rw [ofChars_eq_map hspecial hfile hfront alone' (isSlash_of_mem_head? rest')]
  cases hauthority : Authority.ofChars scheme false
    (Text.breakAt isSlash (front.dropWhile isSlash)).1 with
  | error e =>
    rw [hauthority] at h
    cases h
  | ok r => exact ⟨_, rfl⟩

end

/-- **What is added to a path** is taken in after the segments that are there. -/
theorem ofChars_append {front : List Char} {n : Nat} {alone : Bool} {b : UrlBody}
    (h : ofChars scheme alone (front ++ Url.slashes n) = .ok b) :
    ∃ a segments, (∃ m, b = .path a (segments ++ List.replicate m "")) ∧
      ∀ alone' rest, ofChars scheme alone' (front ++ '/' :: rest) =
        .ok (.path a (UrlPath.pushAll false segments (UrlPath.pieces rest))) := by
  have hfront := isEmpty_dropWhile hspecial hfile h
  have hslashes : ∀ c ∈ (Url.slashes n).head?, isSlash c = true := fun c hc ↦
    isSlash_of_mem_slashes (List.mem_of_mem_head? hc)
  rw [ofChars_eq_map hspecial hfile hfront alone hslashes] at h
  -- the host ends before the rest, so it is the same whatever the rest is
  cases hauthority : Authority.ofChars scheme false
    (Text.breakAt isSlash (front.dropWhile isSlash)).1 with
  | error e =>
    rw [hauthority] at h
    cases h
  | ok r =>
    rw [hauthority] at h
    obtain rfl := Except.ok.inj h
    obtain ⟨segments, ⟨m, hend⟩, hgoes⟩ :=
      exists_front (r.2 ++ (Text.breakAt isSlash (front.dropWhile isSlash)).2)
    refine ⟨some r.1, segments, ?_, fun alone' rest ↦ ?_⟩
    · -- the slashes at the end are empty segments
      cases n with
      | zero =>
        refine ⟨m, ?_⟩
        rw [← hend]
        exact congrArg (fun cs ↦ path (some r.1) (segmentsAfter true cs)) (List.append_nil _)
      | succ n =>
        refine ⟨n + 1, ?_⟩
        show path (some r.1) (segmentsAfter true (_ ++ '/' :: Url.slashes n)) = _
        rw [hgoes, UrlPath.pieces_slashes, UrlPath.pushAll_replicate]
    · rw [ofChars_eq_map hspecial hfile hfront alone' (isSlash_of_mem_head? rest), hauthority]
      show Except.ok (path (some r.1) (segmentsAfter true (_ ++ '/' :: rest))) = _
      rw [hgoes]

end UrlBody

/-! ### What follows an address -/

/-- What may follow an address: segments with a slash before each, and a query, written with no need
of escapes. -/
structure UrlTail where
  segments : List String
  query : Option String
  ne_nil : segments ≠ []
  isSelf_segments : ∀ s ∈ segments, ∀ c ∈ s.toList, isSelf c = true
  isSelf_query : ∀ q ∈ query, ∀ c ∈ q.toList, isSelf c = true

namespace UrlTail

variable (t : UrlTail)

/-- The text of what follows an address. -/
def text : String := UrlPath.text t.segments ++ Url.marked "?" t.query

theorem text_ne_nil : t.text.toList ≠ [] := by
  obtain ⟨s, rest, hsegments⟩ := List.exists_cons_of_ne_nil t.ne_nil
  rw [text, hsegments, String.toList_append, UrlPath.toList_text_cons]
  exact List.cons_ne_nil _ _

/-- A character of a path is a slash or one of its segments. -/
theorem of_mem_toList_text {segments : List String} {c : Char}
    (hc : c ∈ (UrlPath.text segments).toList) :
    c = '/' ∨ ∃ s ∈ segments, c ∈ s.toList := by
  induction segments with
  | nil => cases hc
  | cons s rest ih =>
    rw [UrlPath.toList_text_cons, List.mem_cons, List.mem_append] at hc
    rcases hc with hslash | hs | hrest
    · exact .inl hslash
    · exact .inr ⟨s, List.mem_cons_self, hs⟩
    · exact (ih hrest).imp_right fun ⟨s', hs', hc⟩ ↦ ⟨s', List.mem_cons_of_mem s hs', hc⟩

theorem of_mem_marked {mark : String} {o : Option String} {c : Char}
    (hc : c ∈ (Url.marked mark o).toList) :
    c ∈ mark.toList ∨ ∃ s ∈ o, c ∈ s.toList := by
  cases o with
  | none => cases hc
  | some s =>
    rw [Url.marked, String.toList_append, List.mem_append] at hc
    exact hc.imp_right fun hs ↦ ⟨s, rfl, hs⟩

/-- Whatever follows an address consists of characters that stay as they are. -/
theorem isSelfOrMark_text {c : Char} (hc : c ∈ t.text.toList) : isSelfOrMark c = true := by
  rw [text, String.toList_append, List.mem_append] at hc
  rcases hc with hpath | hquery
  · rcases of_mem_toList_text hpath with rfl | ⟨s, hs, hc⟩
    · rfl
    · exact isSelfOrMark_of_isSelf (t.isSelf_segments s hs c hc)
  · rcases of_mem_marked hquery with hmark | ⟨q, hq, hc⟩
    · obtain rfl : c = '?' := by simpa using hmark
      rfl
    · exact isSelfOrMark_of_isSelf (t.isSelf_query q hq c hc)

theorem pieces_of_isSelf {cs : List Char} (h : ∀ c ∈ cs, isSelf c = true) :
    UrlPath.pieces cs = [cs] := by
  have hsplit : Text.split (fun c ↦ c = '/' || (true && c = '\\')) cs = [cs] := by
    refine Text.split_of_forall fun c hc ↦ ?_
    have hnot := (isSelf_spec c (h c hc)).2
    simp_all
  rw [UrlPath.pieces, hsplit, List.map_singleton,
    Percent.encodeChars_of_forall fun c hc ↦ ⟨lt_of_isSelf (h c hc), (isSelf_spec c (h c hc)).1⟩]

/-- A path that needs no escapes is read as the segments that it was put together from. -/
theorem pieces_text {s : String} {rest : List String}
    (h : ∀ s' ∈ s :: rest, ∀ c ∈ s'.toList, isSelf c = true) :
    UrlPath.pieces (s.toList ++ (UrlPath.text rest).toList) = (s :: rest).map String.toList := by
  obtain ⟨hs, hrest⟩ := List.forall_mem_cons.1 h
  induction rest generalizing s with
  | nil =>
    show UrlPath.pieces (s.toList ++ []) = _
    rw [List.append_nil, pieces_of_isSelf hs, List.map_singleton]
  | cons s' rest ih =>
    obtain ⟨hs', hrest'⟩ := List.forall_mem_cons.1 hrest
    rw [UrlPath.toList_text_cons, UrlPath.pieces_append, pieces_of_isSelf hs, ih hrest hs' hrest',
      List.map_cons]
    rfl

/-- The path of what follows is a slash, and pieces that are its segments. -/
theorem exists_path : ∃ rest, (UrlPath.text t.segments).toList = '/' :: rest ∧
    UrlPath.pieces rest = t.segments.map String.toList := by
  obtain ⟨s, rest, hsegments⟩ := List.exists_cons_of_ne_nil t.ne_nil
  have hself := t.isSelf_segments
  rw [hsegments] at hself ⊢
  exact ⟨_, UrlPath.toList_text_cons s rest, pieces_text hself⟩

theorem not_mem_path : '?' ∉ (UrlPath.text t.segments).toList := by
  intro h
  rcases of_mem_toList_text h with hslash | ⟨s, hs, hmem⟩
  · cases hslash
  · exact (isSelf_spec '?' (t.isSelf_segments s hs '?' hmem)).2 (by decide)

/-- No fragment begins in what follows. -/
theorem cutAt_fragment {front : List Char} (hfront : '#' ∉ front) :
    Text.cutAt '#' (front ++ t.text.toList) = (front ++ t.text.toList, none) := by
  refine Text.cutAt_of_not_mem fun hmem ↦ ?_
  rcases List.mem_append.1 hmem with hmem | hmem
  · exact hfront hmem
  · exact (isSelfOrMark_spec '#' (t.isSelfOrMark_text hmem)).1.2 (by decide)

/-- What follows is cut into its segments and its query. -/
theorem exists_cut {front : List Char} (hfront : '?' ∉ front) :
    ∃ rest, UrlPath.pieces rest = t.segments.map String.toList ∧
      Text.cutAt '?' (front ++ t.text.toList) = (front ++ '/' :: rest,
        t.query.map String.toList) := by
  obtain ⟨rest, hrest, hpieces⟩ := t.exists_path
  have hpath : '?' ∉ front ++ '/' :: rest :=
    fun hmem ↦ (List.mem_append.1 hmem).elim hfront fun hmem ↦
    t.not_mem_path (hrest ▸ hmem)
  refine ⟨rest, hpieces, ?_⟩
  rw [text, String.toList_append, hrest, ← List.append_assoc]
  cases t.query with
  | none =>
    show Text.cutAt '?' (front ++ '/' :: rest ++ []) = _
    rw [List.append_nil, Text.cutAt_of_not_mem hpath]
    rfl
  | some q =>
    rw [Url.marked, String.toList_append]
    exact Text.cutAt_append_cons hpath q.toList

end UrlTail

namespace Url

/-- The last part of an address, up to the slashes at its end. What follows the address is added to
it. -/
inductive End (u : Url) where
  | fragment (f : String) (n : Nat) (h : u.fragment = some (f ++ String.ofList (slashes n)))
  | query (q : String) (n : Nat) (hfragment : u.fragment = none)
    (h : u.query = some (q ++ String.ofList (slashes n)))
  | path (a : Option Authority) (segments : List String) (n : Nat) (hfragment : u.fragment = none)
    (hquery : u.query = none) (h : u.body = .path a (segments ++ List.replicate n ""))

/-- An address with something else than slashes after its last part. -/
def End.add {u : Url} : u.End → UrlTail → Url
  | fragment f _ _, t => { u with fragment := some (f ++ t.text) }
  | query q _ _ _, t => { u with query := some (q ++ t.text) }
  | path a segments _ _ _ _, t =>
    { u with
      body := .path a (UrlPath.pushAll false segments (t.segments.map String.toList))
      query := t.query }

section

variable {stands : UInt8 → Bool}
  (hstands : ∀ c, isSelfOrMark c = true → stands (UInt8.ofNat c.toNat) = true)
include hstands

/-- What stands for itself needs no escapes. -/
theorem coded_of_isSelfOrMark {cs : List Char} (h : ∀ c ∈ cs, isSelfOrMark c = true) :
    coded stands cs = String.ofList cs := by
  have hascii : ∀ c ∈ cs, c.toNat < 0x80 ∧ stands (UInt8.ofNat c.toNat) = true := fun c hc ↦
    ⟨lt_of_isSelfOrMark (h c hc), hstands c (h c hc)⟩
  rw [coded, Percent.encodeChars_of_forall hascii]

/-- What stands for itself adds no escapes to what comes before it. -/
theorem coded_append {back : List Char} (h : ∀ c ∈ back, isSelfOrMark c = true)
    (front : List Char) :
    coded stands (front ++ back) = coded stands front ++ String.ofList back := by
  rw [← coded_of_isSelfOrMark hstands h, coded, Percent.encodeChars_append, String.ofList_append]
  rfl

end

theorem isSelfOrMark_of_mem_slashes {n : Nat} {c : Char} (hc : c ∈ slashes n) :
    isSelfOrMark c = true := by
  rw [List.eq_of_mem_replicate hc]
  rfl

/-- Slashes at the end make no fragment. -/
theorem cutAt_fragment_slashes {front : List Char} (hfront : '#' ∉ front) (n : Nat) :
    Text.cutAt '#' (front ++ slashes n) = (front ++ slashes n, none) :=
  Text.cutAt_of_not_mem fun hmem ↦ (List.mem_append.1 hmem).elim hfront fun hmem ↦
    absurd (List.eq_of_mem_replicate hmem) (by decide)

/-- The texts in which something else follows the same. -/
def Follows (front : List Char) (scheme : String) (s : String) (t : UrlTail) : Prop :=
  splitScheme? (clean s.toList) = some (scheme, front ++ t.text.toList)

section

variable {s : String} {front : List Char} {n : Nat} {u : Url} (hu : ofText s = .ok u)
  (hscheme : splitScheme? (clean s.toList) = some (u.scheme, front ++ slashes n))
include hu hscheme

/-- An address with a fragment goes on in its fragment. -/
theorem exists_end_of_fragment (hmark : '#' ∈ front) :
    ∃ e : u.End, ∀ s t, Follows front u.scheme s t → ofText s = .ok (e.add t) := by
  obtain ⟨before, f, rfl, hbefore⟩ := List.eq_append_cons_of_mem hmark
  obtain ⟨⟨body, query⟩, hquery⟩ : ∃ r, Text.cutAt '?' before = r := ⟨_, rfl⟩
  rw [List.append_assoc, List.cons_append] at hscheme
  obtain ⟨hbody, -, hq, hf⟩ :=
    (ofText_eq_ok_iff hscheme (Text.cutAt_append_cons hbefore _) hquery).1 hu
  have hstands : ∀ c, isSelfOrMark c = true → fragmentStands (UInt8.ofNat c.toNat) = true :=
    fun c hc ↦
    (isSelfOrMark_spec c hc).2.1
  rw [Option.map_some, coded_append hstands fun c ↦ isSelfOrMark_of_mem_slashes] at hf
  refine ⟨.fragment (coded fragmentStands f) n hf, fun s' t ht ↦ ?_⟩
  rw [Follows, List.append_assoc, List.cons_append] at ht
  refine (ofText_eq_ok_iff ht (Text.cutAt_append_cons hbefore _) hquery).2 ⟨hbody, rfl, hq, ?_⟩
  rw [Option.map_some, coded_append hstands fun c ↦ t.isSelfOrMark_text, String.ofList_toList]
  rfl

/-- An address with a query and without a fragment goes on in its query. -/
theorem exists_end_of_query (hfragment : '#' ∉ front) (hmark : '?' ∈ front) :
    ∃ e : u.End, ∀ s t, Follows front u.scheme s t → ofText s = .ok (e.add t) := by
  obtain ⟨body, q, rfl, hbody⟩ := List.eq_append_cons_of_mem hmark
  have hcut := cutAt_fragment_slashes hfragment n
  rw [List.append_assoc, List.cons_append] at hscheme hcut
  obtain ⟨hread, -, hq, hf⟩ := (ofText_eq_ok_iff hscheme hcut (Text.cutAt_append_cons hbody _)).1 hu
  have hstands : ∀ c, isSelfOrMark c = true →
      queryStands (isSpecial u.scheme) (UInt8.ofNat c.toNat) = true :=
    fun c hc ↦ (isSelfOrMark_spec c hc).2.2 _
  rw [Option.map_some, coded_append hstands fun c ↦ isSelfOrMark_of_mem_slashes] at hq
  refine ⟨.query (coded (queryStands (isSpecial u.scheme)) q) n hf hq, fun s' t ht ↦ ?_⟩
  have hcut' := t.cutAt_fragment hfragment
  rw [Follows, List.append_assoc, List.cons_append] at ht
  rw [List.append_assoc, List.cons_append] at hcut'
  refine (ofText_eq_ok_iff ht hcut' (Text.cutAt_append_cons hbody _)).2 ⟨hread, rfl, ?_, hf⟩
  rw [Option.map_some, coded_append hstands fun c ↦ t.isSelfOrMark_text, String.ofList_toList]
  rfl

/-- The body of an address that has neither a query nor a fragment. -/
theorem ofChars_of_not_mem (hfragment : '#' ∉ front) (hquery : '?' ∉ front) :
    UrlBody.ofChars u.scheme true (front ++ slashes n) = .ok u.body ∧ u.query = none ∧
    u.fragment = none := by
  have hnot : '?' ∉ front ++ slashes n := fun hmem ↦ (List.mem_append.1 hmem).elim hquery fun hmem ↦
    absurd (List.eq_of_mem_replicate hmem) (by decide)
  obtain ⟨hread, -, hq, hf⟩ :=
    (ofText_eq_ok_iff hscheme (cutAt_fragment_slashes hfragment n) (Text.cutAt_of_not_mem hnot)).1
    hu
  exact ⟨hread, hq, hf⟩

/-- An address that can be reached goes on in its path when it has neither query nor fragment. -/
theorem exists_end_of_path (hspecial : isSpecial u.scheme = true) (hfile : u.scheme ≠ "file")
    (hfragment : '#' ∉ front) (hquery : '?' ∉ front) :
    ∃ e : u.End, ∀ s t, Follows front u.scheme s t → ofText s = .ok (e.add t) := by
  obtain ⟨hread, hq, hf⟩ := ofChars_of_not_mem hu hscheme hfragment hquery
  obtain ⟨a, segments, ⟨m, hbody⟩, hgoes⟩ := UrlBody.ofChars_append hspecial hfile hread
  refine ⟨.path a segments m hf hq hbody, fun s' t ht ↦ ?_⟩
  obtain ⟨rest, hpieces, hcut⟩ := t.exists_cut hquery
  refine (ofText_eq_ok_iff ht (t.cutAt_fragment hfragment) hcut).2 ⟨?_, rfl, ?_, hf⟩
  · rw [hgoes, hpieces]
    rfl
  · show t.query = (t.query.map String.toList).map _
    have hstands : ∀ c, isSelfOrMark c = true →
        queryStands (isSpecial u.scheme) (UInt8.ofNat c.toNat) = true :=
      fun c hc ↦ (isSelfOrMark_spec c hc).2.2 _
    cases hq : t.query with
    | none => rfl
    | some q =>
      have hself : ∀ c ∈ q.toList, isSelfOrMark c = true := fun c hc ↦
        isSelfOrMark_of_isSelf (t.isSelf_query q hq c hc)
      rw [Option.map_some, Option.map_some, coded_of_isSelfOrMark hstands hself,
        String.ofList_toList]

/-- **Whether something can follow an address** does not depend on what it is. -/
theorem exists_ofText_of_follows (hspecial : isSpecial u.scheme = true) (hfile : u.scheme ≠ "file")
    {edges : List Char} {s₁ s₂ : String} {t₁ t₂ : UrlTail} {v : Url}
    (h₁ : Follows (front ++ edges) u.scheme s₁ t₁) (h₂ : Follows (front ++ edges) u.scheme s₂ t₂)
    (hv : ofText s₁ = .ok v) : ∃ v', ofText s₂ = .ok v' := by
  by_cases hmark : '#' ∈ front ++ edges
  · obtain ⟨before, f, hsplit, hbefore⟩ := List.eq_append_cons_of_mem hmark
    obtain ⟨⟨body, query⟩, hquery⟩ : ∃ r, Text.cutAt '?' before = r := ⟨_, rfl⟩
    rw [Follows, hsplit, List.append_assoc, List.cons_append] at h₁ h₂
    have hread := ((ofText_eq_ok_iff h₁ (Text.cutAt_append_cons hbefore _) hquery).1 hv).1
    exact exists_ofText h₂ (Text.cutAt_append_cons hbefore _) hquery hread
  have hcut₁ := t₁.cutAt_fragment hmark
  have hcut₂ := t₂.cutAt_fragment hmark
  by_cases hquery : '?' ∈ front ++ edges
  · obtain ⟨body, q, hsplit, hbody⟩ := List.eq_append_cons_of_mem hquery
    rw [hsplit, List.append_assoc, List.cons_append] at hcut₁ hcut₂
    rw [Follows, hsplit, List.append_assoc, List.cons_append] at h₁ h₂
    have hread := ((ofText_eq_ok_iff h₁ hcut₁ (Text.cutAt_append_cons hbody _)).1 hv).1
    exact exists_ofText h₂ hcut₂ (Text.cutAt_append_cons hbody _) hread
  · obtain ⟨rest₁, -, hpath₁⟩ := t₁.exists_cut hquery
    obtain ⟨rest₂, -, hpath₂⟩ := t₂.exists_cut hquery
    have hfront := (ofChars_of_not_mem hu hscheme (fun h ↦ hmark (List.mem_append_left _ h))
      fun h ↦ hquery (List.mem_append_left _ h)).1
    have hhost : ((front ++ edges).dropWhile UrlBody.isSlash).isEmpty = false := by
      have hempty := UrlBody.isEmpty_dropWhile hspecial hfile hfront
      rw [List.dropWhile_append, hempty, if_neg Bool.false_ne_true, List.isEmpty_eq_false_iff]
      exact List.append_ne_nil_of_left_ne_nil (List.isEmpty_eq_false_iff.1 hempty) edges
    have hread := ((ofText_eq_ok_iff h₁ hcut₁ hpath₁).1 hv).1
    obtain ⟨b, hb⟩ := UrlBody.exists_ofChars hspecial hfile hhost hread _ rest₂
    -- the host is the same, so the rest is read into the path
    exact exists_ofText h₂ hcut₂ hpath₂ hb

end

/-- Some edges of an address are kept when something follows it. -/
theorem exists_edges (front : List Char) :
    ∃ edges, (front.dropWhile isEdge).filter shows = clean front ++ edges := by
  refine ⟨((front.dropWhile isEdge).reverse.takeWhile isEdge).reverse.filter shows, ?_⟩
  have hsplit : front.dropWhile isEdge =
      ((front.dropWhile isEdge).reverse.dropWhile isEdge).reverse ++
      ((front.dropWhile isEdge).reverse.takeWhile isEdge).reverse := by
    rw [← List.reverse_append, List.takeWhile_append_dropWhile, List.reverse_reverse]
  exact (congrArg (List.filter shows) hsplit).trans (List.filter_append _ _)

/-- Cleaning leaves alone what follows an address. -/
theorem clean_append_text {front back : List Char} (hback : ∀ c ∈ back, isSelfOrMark c = true)
    (hend : ∀ c ∈ (front ++ back).getLast?, isEdge c = false) :
    clean (front ++ back) = (front.dropWhile isEdge).filter shows ++ back := by
  have hshows : back.filter shows = back := List.filter_eq_self.2 fun c hc ↦ by
    have hnot := (isSelfOrMark_spec c (hback c hc)).1.2
    simp_all [shows]
  rw [clean_append (fun c hc ↦ (isSelfOrMark_spec c (hback c (List.mem_of_mem_head? hc))).1.1) hend,
    hshows]

section

variable {front : List Char} {n : Nat} {u : Url}
  (hu : ofText (String.ofList (front ++ slashes n)) = .ok u)
include hu

/-- What follows an address is read after what is left of it, and after the edges of the address if
it ends in them. -/
theorem exists_follows : ∃ r edges,
    ((∀ c ∈ (front ++ slashes n).getLast?, isEdge c = false) → edges = []) ∧
      splitScheme? (clean (String.ofList (front ++ slashes n)).toList) =
        some (u.scheme, r ++ slashes n) ∧
      ∀ t : UrlTail, Follows (r ++ edges) u.scheme (String.ofList (front ++ t.text.toList)) t := by
  -- nothing of what follows is trimmed away
  have htail : ∀ t : UrlTail, clean (front ++ t.text.toList) =
      (front.dropWhile isEdge).filter shows ++ t.text.toList := by
    refine fun t ↦ clean_append_text (fun c ↦ t.isSelfOrMark_text) fun c hc ↦ ?_
    rw [List.getLast?_append_of_ne_nil _ t.text_ne_nil] at hc
    exact (isSelfOrMark_spec c (t.isSelfOrMark_text (List.mem_of_mem_getLast? hc))).1.1
  cases hsplit : splitScheme? (clean (String.ofList (front ++ slashes n)).toList) with
  | none =>
    rw [ofText, hsplit] at hu
    cases hu
  | some r =>
    obtain ⟨scheme, rest⟩ := r
    obtain rfl : u.scheme = scheme := ((ofText_eq_ok_iff hsplit rfl rfl).1 hu).2.1
    rw [String.toList_ofList] at hsplit
    by_cases hend : ∀ c ∈ (front ++ slashes n).getLast?, isEdge c = false
    · -- the slashes at the end are not trimmed away either
      rw [clean_append_text (fun c ↦ isSelfOrMark_of_mem_slashes) hend] at hsplit
      obtain ⟨r, rfl, hgoes⟩ := splitScheme?_append hsplit
      refine ⟨r, [], fun _ ↦ rfl, rfl, fun t ↦ ?_⟩
      rw [Follows, String.toList_ofList, htail t, hgoes, List.append_nil]
    · -- no slash is an edge, so there are none at the end
      cases n with
      | succ n =>
        have hne : slashes (n + 1) ≠ [] := List.cons_ne_nil _ _
        refine absurd (fun c hc ↦ ?_) hend
        rw [List.getLast?_append_of_ne_nil front hne] at hc
        rw [List.eq_of_mem_replicate (List.mem_of_mem_getLast? hc)]
        decide
      | zero =>
        obtain ⟨edges, hedges⟩ := exists_edges front
        have hfront : splitScheme? (clean front ++ slashes 0) = some (u.scheme, rest) := by
          rw [← hsplit]
          exact congrArg splitScheme?
            ((List.append_nil _).trans (congrArg clean (List.append_nil front).symm))
        obtain ⟨r, rfl, hgoes⟩ := splitScheme?_append hfront
        refine ⟨r, edges, fun h ↦ absurd h hend, rfl, fun t ↦ ?_⟩
        rw [Follows, String.toList_ofList, htail t, hedges, List.append_assoc, hgoes,
          List.append_assoc]

/-- What follows an address does not change its scheme. -/
theorem scheme_of_follows {t : UrlTail} {v : Url}
    (hv : ofText (String.ofList (front ++ t.text.toList)) = .ok v) :
    v.scheme = u.scheme := by
  obtain ⟨r, edges, -, -, hfollows⟩ := exists_follows hu
  exact ((ofText_eq_ok_iff (hfollows t) rfl rfl).1 hv).2.1

variable (hspecial : isSpecial u.scheme = true) (hfile : u.scheme ≠ "file")
include hspecial hfile

/-- If one thing can follow an address, then so can any other. -/
theorem exists_ofText_of_tail {t : UrlTail} {v : Url}
    (hv : ofText (String.ofList (front ++ t.text.toList)) = .ok v) (t' : UrlTail) :
    ∃ v', ofText (String.ofList (front ++ t'.text.toList)) = .ok v' := by
  obtain ⟨r, edges, -, hscheme, hfollows⟩ := exists_follows hu
  exact exists_ofText_of_follows hu hscheme hspecial hfile (hfollows t) (hfollows t') hv

/-- **What follows an address is added to its last part.** -/
theorem exists_end (hend : ∀ c ∈ (front ++ slashes n).getLast?, isEdge c = false) :
    ∃ e : u.End, ∀ t : UrlTail, ofText (String.ofList (front ++ t.text.toList)) =
      .ok (e.add t) := by
  obtain ⟨r, edges, hedges, hscheme, hfollows⟩ := exists_follows hu
  rw [hedges hend, List.append_nil] at hfollows
  have hexists : ∃ e : u.End, ∀ s t, Follows r u.scheme s t → ofText s = .ok (e.add t) := by
    by_cases hfragment : '#' ∈ r
    · exact exists_end_of_fragment hu hscheme hfragment
    by_cases hquery : '?' ∈ r
    · exact exists_end_of_query hu hscheme hfragment hquery
    · exact exists_end_of_path hu hscheme hspecial hfile hfragment hquery
  obtain ⟨e, he⟩ := hexists
  exact ⟨e, fun t ↦ he _ t (hfollows t)⟩

end

end Url

end GraphSession
