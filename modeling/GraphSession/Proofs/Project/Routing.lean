import Mathlib.Data.List.Induction
import GraphSession.Project.FaultDisplay
import GraphSession.Proofs.Maps.Entries
import GraphSession.Proofs.Text.Cutting

/-!
# Where the messages of a fault go

Messages are sent to their places one by one (`FaultDisplay.Routing.send`). What has come to a place
is at any time what of the messages so far belongs there, in order and with its repetitions
(`FaultDisplay.Routing.Sorts`), so nothing is lost and nothing comes twice. What is drawn is read
off at the end, and nothing to draw means that there was nothing to say
(`FaultDisplay.ofFault_faithful`).

**A label.** A message is for a port if its text before the first colon is the name of the port,
apart from blanks around it (`FaultDisplay.Labels`). A message without a colon is for the node, and
so is one whose label is not one of the ports in question.
-/

namespace GraphSession

namespace FaultDisplay

/-! ### Labels -/

/-- The text of a message before its first colon names the port, apart from blanks around the
name. -/
def Labels (port message : String) : Prop :=
  ∃ front rest, message.toList = front ++ ':' :: rest ∧ ':' ∉ front ∧
    Text.IsTrimmed front port.toList

/-- A message names the port before its first colon. -/
theorem labels_iff {port message : String} {front rest : List Char}
    (h : message.toList = front ++ ':' :: rest) (hfirst : ':' ∉ front) :
    Labels port message ↔ String.ofList (Text.trim front) = port := by
  rw [← String.toList_inj, String.toList_ofList, Text.trim_eq_iff]
  refine ⟨?_, fun htrim ↦ ⟨front, rest, h, hfirst, htrim⟩⟩
  rintro ⟨front', rest', h', hfirst', htrim⟩
  have hsame : front' = front := by
    rw [← Text.takeWhile_ne_append_cons hfirst' rest', ← h', h,
      Text.takeWhile_ne_append_cons hfirst]
  rwa [← hsame]

/-- **A message is for the port that labels it**, if that is one of the ports in question. -/
theorem portOf?_eq_some_iff {ports : NameSet} {message port : String} :
    portOf? ports message = some port ↔ port ∈ ports ∧ Labels port message := by
  by_cases hcolon : ':' ∈ message.toList
  · obtain ⟨front, rest, h, hfirst⟩ := List.eq_append_cons_of_mem hcolon
    have hfront : message.toList.takeWhile (· ≠ ':') = front := by
      rw [h, Text.takeWhile_ne_append_cons hfirst]
    rw [labels_iff h hfirst, portOf?, if_pos hcolon, hfront]
    dsimp only
    split_ifs with hport
    · rw [Option.some_inj, and_iff_right_of_imp]
      rintro rfl
      exact List.contains_iff_mem.1 hport
    · refine ⟨nofun, ?_⟩
      rintro ⟨hmem, rfl⟩
      exact absurd (List.contains_iff_mem.2 hmem) hport
  · rw [portOf?, if_neg hcolon]
    refine ⟨nofun, ?_⟩
    rintro ⟨-, front, rest, h, -⟩
    exact absurd (h ▸ List.mem_append_right _ List.mem_cons_self) hcolon

/-! ### Attaching -/

theorem nodup_of_ascending {names : List String} (h : names.Pairwise (· < ·)) : names.Nodup :=
  List.Pairwise.imp (fun hlt ↦ fun heq ↦ String.lt_irrefl _ (heq ▸ hlt)) h

section Attach

variable {port message : String} {es : List (String × List String)}

/-- A port gets a place where it belongs among the others. -/
theorem keys_attach (port message : String) (es : List (String × List String)) :
    Entries.keys (attach port message es) = NameSet.place port (Entries.keys es) := by
  induction es with
  | nil => rfl
  | cons e rest ih =>
    simp only [Entries.keys, List.map_cons] at ih ⊢
    rw [attach, NameSet.place]
    split_ifs with hlt heq
    · rfl
    · rfl
    · rw [List.map_cons, ih]

/-- Attaching a message adds it behind what its port already has, and leaves the other ports. -/
theorem lookup_attach (h : (Entries.keys es).Pairwise (· < ·)) (port message k : String) :
    (attach port message es).lookup k =
      if k = port then some ((es.lookup port).getD [] ++ [message]) else es.lookup k := by
  induction es with
  | nil =>
    split_ifs with hk
    · rw [hk, attach, List.lookup_cons_self]
      rfl
    · rw [attach, Entries.lookup_cons_of_ne hk]
  | cons e rest ih =>
    obtain ⟨name, own⟩ := e
    obtain ⟨hname, hrest⟩ := List.pairwise_cons.1 h
    by_cases hlt : port < name
    · -- the port comes before all that have a place
      have hnot : port ∉ Entries.keys ((name, own) :: rest) := by
        rintro (_ | ⟨_, hmem⟩)
        · exact String.lt_irrefl _ hlt
        · exact String.lt_irrefl _ (String.lt_trans hlt (hname port hmem))
      rw [attach, if_pos hlt]
      split_ifs with hk
      · rw [hk, List.lookup_cons_self, Entries.lookup_eq_none_of_not_mem hnot]
        rfl
      · rw [Entries.lookup_cons_of_ne hk]
    · by_cases hname : port = name
      · -- the port has a place already
        subst hname
        rw [attach, if_neg hlt, if_pos rfl]
        split_ifs with hk
        · rw [hk, List.lookup_cons_self, List.lookup_cons_self]
          rfl
        · rw [Entries.lookup_cons_of_ne hk, Entries.lookup_cons_of_ne hk]
      · -- the place of the port is further on
        rw [attach, if_neg hlt, if_neg hname, Entries.lookup_cons_of_ne hname]
        by_cases hk : k = name
        · rw [hk, List.lookup_cons_self, List.lookup_cons_self, if_neg (Ne.symm hname)]
        · rw [Entries.lookup_cons_of_ne hk, Entries.lookup_cons_of_ne hk, ih hrest]

/-- A message comes in, and nothing else comes or goes. -/
theorem flatMap_attach (port message : String) (es : List (String × List String)) :
    ((attach port message es).flatMap Prod.snd).Perm (message :: es.flatMap Prod.snd) := by
  induction es with
  | nil => exact .refl _
  | cons e rest ih =>
    rw [attach]
    split_ifs with hlt heq
    · exact .refl _
    · rw [List.flatMap_cons, List.flatMap_cons, List.append_assoc]
      exact List.perm_middle
    · rw [List.flatMap_cons, List.flatMap_cons]
      exact (ih.append_left e.2).trans List.perm_middle

end Attach

/-! ### Sending -/

/-- Each of some messages has come to the place it is for, in the order of the messages. -/
structure Routing.Sorts (ports : NameSet) (messages : List String) (r : Routing) : Prop where
  ascending : (Entries.keys r.atPorts).Pairwise (· < ·)
  filled : ∀ e ∈ r.atPorts, e.2 ≠ []
  atPorts : ∀ port, (r.atPorts.lookup port).getD [] = messages.filter (portOf? ports · = some port)
  atNode : r.atNode = messages.filter (portOf? ports · = none)
  all : (r.atPorts.flatMap Prod.snd ++ r.atNode).Perm messages

theorem Routing.sorts_nil (ports : NameSet) : Routing.Sorts ports [] ⟨[], []⟩ where
  ascending := .nil
  filled := nofun
  atPorts _ := rfl
  atNode := rfl
  all := .refl _

section Send

variable {ports : NameSet} {messages : List String} {r : Routing}

/-- A message for a port keeps the routing sorted. -/
theorem Routing.Sorts.toPort (h : r.Sorts ports messages) {port message : String}
    (hport : portOf? ports message = some port) :
    Routing.Sorts ports (messages ++ [message])
    { r with atPorts := attach port message r.atPorts } := by
  have hascending : (Entries.keys (attach port message r.atPorts)).Pairwise (· < ·) := by
    rw [keys_attach]
    exact NameSet.pairwise_place h.ascending
  refine ⟨hascending, fun e he ↦ ?_, fun k ↦ ?_, ?_, ?_⟩
  · have hlookup := (Entries.lookup_eq_some_iff (nodup_of_ascending hascending)).2 he
    rw [lookup_attach h.ascending] at hlookup
    split_ifs at hlookup with hk
    · rw [← Option.some.inj hlookup]
      exact List.append_ne_nil_of_right_ne_nil _ (List.cons_ne_nil _ _)
    · exact h.filled e (Entries.mem_of_lookup hlookup)
  · rw [lookup_attach h.ascending, List.filter_append]
    split_ifs with hk
    · rw [Option.getD_some, h.atPorts, hk, List.filter_singleton, hport, decide_eq_true rfl]
      rfl
    · rw [h.atPorts, List.filter_singleton, hport, decide_eq_false (by simpa using Ne.symm hk)]
      exact (List.append_nil _).symm
  · rw [List.filter_append, List.filter_singleton, hport, ← h.atNode]
    exact (List.append_nil _).symm
  · exact ((flatMap_attach port message r.atPorts).append_right r.atNode).trans
      ((h.all.cons message).trans (List.perm_append_singleton message messages).symm)

/-- A message for the node keeps the routing sorted. -/
theorem Routing.Sorts.toNode (h : r.Sorts ports messages) {message : String}
    (hport : portOf? ports message = none) :
    Routing.Sorts ports (messages ++ [message]) { r with atNode := r.atNode ++ [message] } := by
  refine ⟨h.ascending, h.filled, fun k ↦ ?_, ?_, ?_⟩
  · rw [List.filter_append, List.filter_singleton, hport, ← h.atPorts]
    exact (List.append_nil _).symm
  · rw [List.filter_append, List.filter_singleton, hport, ← h.atNode]
    rfl
  · rw [← List.append_assoc]
    exact h.all.append_right [message]

/-- Whichever way a message goes, the routing stays sorted. -/
theorem Routing.Sorts.send (h : r.Sorts ports messages) (message : String) :
    (r.send ports message).Sorts ports (messages ++ [message]) := by
  rw [Routing.send]
  split
  · exact h.toPort ‹_›
  · exact h.toNode ‹_›

end Send

/-- The routing of a list of messages sorts them all. -/
theorem Routing.sorts_ofMessages (ports : NameSet) (messages : List String) :
    (Routing.ofMessages ports messages).Sorts ports messages := by
  induction messages using List.reverseRecOn with
  | nil => exact Routing.sorts_nil ports
  | append_singleton messages message ih =>
    rw [Routing.ofMessages, List.foldl_append]
    exact ih.send message

/-- The messages of a port are those for it, and a port without messages has no place. -/
theorem Routing.Sorts.mem_atPorts_iff {ports : NameSet} {messages : List String} {r : Routing}
    (h : r.Sorts ports messages) {port : String} {own : List String} :
    (port, own) ∈ r.atPorts ↔ own ≠ [] ∧ own = messages.filter (portOf? ports · = some port) := by
  rw [← h.atPorts, ← Entries.lookup_eq_some_iff (nodup_of_ascending h.ascending)]
  constructor
  · intro hlookup
    exact ⟨h.filled _ (Entries.mem_of_lookup hlookup), by rw [hlookup]; rfl⟩
  · rintro ⟨hne, hown⟩
    cases hlookup : r.atPorts.lookup port with
    | none => exact absurd (hown.trans (by rw [hlookup]; rfl)) hne
    | some own' => rw [hown, hlookup]; rfl

/-- Only ports that are there have messages. -/
theorem Routing.Sorts.mem_ports {ports : NameSet} {messages : List String} {r : Routing}
    (h : r.Sorts ports messages) {port : String} (hport : port ∈ Entries.keys r.atPorts) :
    port ∈ ports := by
  obtain ⟨⟨_, own⟩, he, rfl⟩ := List.mem_map.1 hport
  obtain ⟨hne, hown⟩ := h.mem_atPorts_iff.1 he
  obtain ⟨message, hmessage⟩ := List.exists_mem_of_ne_nil own hne
  rw [hown, List.mem_filter] at hmessage
  exact (portOf?_eq_some_iff.1 (of_decide_eq_true hmessage.2)).1

/-! ### Showing -/

/-- How the messages of a validation fault have to be shown: each one is at one place, a port or the
node, and the messages of one place are in order. -/
structure Sorted (ports : NameSet) (messages : List String) (d : FaultDisplay)
    (place : String → Option String) (rest : List String) : Prop where
  place_iff : ∀ message port, place message = some port ↔ port ∈ ports ∧ Labels port message
  redPorts : d.redPorts = ports
  parameterFlag : d.parameterFlag = false
  /-- Messages are only at red ports. -/
  red : ∀ port ∈ Entries.keys d.portMessages, port ∈ d.redPorts
  ascending : (Entries.keys d.portMessages).Pairwise (· < ·)
  atPorts : ∀ port own, (port, own) ∈ d.portMessages ↔
    own ≠ [] ∧ own = messages.filter (place · = some port)
  /-- The rest is for the node. -/
  atNode : rest = messages.filter (place · = none)
  message : d.message = if rest = [] then none else some ("\n".intercalate rest)
  /-- No message is lost, and none is invented. -/
  all : (d.portMessages.flatMap Prod.snd ++ rest).Perm messages

/-- How a fault has to be shown. -/
def Shows : NodeFault → FaultDisplay → Prop
  | .validation ports messages, d => ∃ place rest, d.Sorted ports messages place rest
  | .parameter messages, d =>
    d.redPorts = ∅ ∧ d.portMessages = [] ∧ d.parameterFlag = true ∧
      d.message = if messages = [] then none else some ("\n".intercalate messages)
  | .execution messages, d =>
    d.redPorts = ∅ ∧ d.portMessages = [] ∧ d.parameterFlag = false ∧
      d.message = some (if messages = [] then "Execution failed" else "\n".intercalate messages)

theorem sorted_ofFault (ports : NameSet) (messages : List String) :
    (ofFault (.validation ports messages)).Sorted ports messages (portOf? ports)
      (Routing.ofMessages ports messages).atNode :=
  have h := Routing.sorts_ofMessages ports messages
  { place_iff := fun _ _ ↦ portOf?_eq_some_iff
    redPorts := rfl
    parameterFlag := rfl
    red := fun _ ↦ h.mem_ports
    ascending := h.ascending
    atPorts := fun _ _ ↦ h.mem_atPorts_iff
    atNode := h.atNode
    message := rfl
    all := h.all }

/-- A shown fault says what the fault says. -/
theorem shows_ofFault (f : NodeFault) : Shows f (ofFault f) := by
  cases f with
  | validation ports messages => exact ⟨_, _, sorted_ofFault ports messages⟩
  | parameter messages => exact ⟨rfl, rfl, rfl, rfl⟩
  | execution messages =>
    refine ⟨rfl, rfl, rfl, ?_⟩
    rw [ofFault, joined]
    split_ifs <;> rfl

/-- Without ports all messages are for the node, so if none shows there then there is none. -/
theorem Sorted.messages_eq_nil {messages : List String} {d : FaultDisplay}
    {place : String → Option String} {rest : List String} (h : d.Sorted ∅ messages place rest)
    (hmessage : d.message = none) :
    messages = [] := by
  have hrest : rest = [] := by
    by_contra hne
    rw [h.message, if_neg hne] at hmessage
    cases hmessage
  have hall : messages.filter (place · = none) = messages :=
    List.filter_eq_self.2 fun message _ ↦ decide_eq_true <| Option.eq_none_iff_forall_ne_some.2
      fun port hport ↦ absurd ((h.place_iff message port).1 hport).1 List.not_mem_nil
  rw [← hall, ← h.atNode, hrest]

/-- Only a validation fault without messages shows as empty. -/
theorem eq_empty_of_isEmpty {f : NodeFault} (h : (ofFault f).isEmpty = true) :
    f = .validation ∅ [] := by
  rw [isEmpty, Bool.and_eq_true, Bool.and_eq_true, List.isEmpty_iff, Option.isNone_iff_eq_none] at h
  obtain ⟨⟨hports, hflag⟩, hmessage⟩ := h
  cases f with
  | validation ports messages =>
    obtain ⟨names, hnames⟩ := ports
    obtain rfl : names = [] := hports
    rw [(sorted_ofFault ∅ messages).messages_eq_nil hmessage]
    rfl
  | parameter messages => cases hflag
  | execution messages => cases hmessage

/-- **The display of a fault loses nothing and invents nothing**, and there is nothing to draw
exactly for a validation fault without ports and without messages. -/
theorem ofFault_faithful (f : NodeFault) :
    Shows f (ofFault f) ∧ ((ofFault f).isEmpty = true ↔ f = .validation ∅ []) := by
  refine ⟨shows_ofFault f, eq_empty_of_isEmpty, ?_⟩
  rintro rfl
  rfl

/-- A label that is not a port in question leaves its message to the node. -/
example : (ofFault (.validation (.ofList ["x"]) [" x : bad", "y: odd", "x:"])).portMessages =
    [("x", [" x : bad", "x:"])] := by
  rfl

end FaultDisplay

end GraphSession
