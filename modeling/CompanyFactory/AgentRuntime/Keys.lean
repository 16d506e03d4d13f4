import CompanyFactory.AgentRuntime.Approved
import CompanyFactory.AgentRuntime.Calls

/-!
# `AgentRuntime.Keys` — which tool-use events share an id

Each tool-use event of a turn calls `Tools.invoke` under an id of its own, a text made of two parts: the correlation id
of the message, or `turn`, and the id that the provider gave to the event, or its number in the turn, or `auto_ack`. A
call under an id that has a result is answered with it. **Neither part belongs to one event alone**: a message with one
correlation id may go to several agents, or be handled again, and a provider's ids are distinct within a response only.

* `key_eq_iff` — when two pairs of parts give the same text.
* `cache_holds_invoked` — a result in the cache comes from an earlier call under its id.
* `calls_separate_iff` — the events of some turns have ids of their own exactly if their parts keep them apart.
-/

namespace CompanyFactory

open Act Machine

namespace AgentRuntime

namespace Turn

/-! ## The two parts of an id -/

def base (t : Turn) : String := or_else t.msg.correlation_id "turn"

def suffix (use : ToolUse × Nat) : String := if use.1.tool_use_id = "" then toString use.2 else use.1.tool_use_id

def suffixes (t : Turn) : List String := t.uses.map suffix ++ (t.ack.map fun _ => "auto_ack").toList

/-- The ids of the calls. -/
def keys (t : Turn) : List String := t.suffixes.map fun s => t.base ++ ":" ++ s

end Turn

/-- The parts read the same, with the colon in one place or in two. -/
def Collide (b s b' s' : String) : Prop :=
  (b = b' ∧ s = s') ∨ (∃ w, b' = b ++ ":" ++ w ∧ s = w ++ ":" ++ s') ∨ ∃ w, b = b' ++ ":" ++ w ∧ s' = w ++ ":" ++ s

/-- Two texts with a separator are the same if their parts are, or if one of them has the separator in both places. -/
theorem append_cons_eq_iff {α : Type} (c : α) (b s b' s' : List α) : b ++ c :: s = b' ++ c :: s' ↔
    (b = b' ∧ s = s') ∨ (∃ w, b' = b ++ c :: w ∧ s = w ++ c :: s') ∨ ∃ w, b = b' ++ c :: w ∧ s' = w ++ c :: s := by
  constructor
  · intro h
    obtain ⟨w, rfl, hs⟩ | ⟨w, rfl, hs⟩ := List.append_eq_append_iff.mp h
    · cases w with
      | nil => exact .inl ⟨(List.append_nil b).symm, (List.cons.inj hs).2⟩
      | cons d w =>
          obtain ⟨rfl, rfl⟩ := List.cons.inj hs
          exact .inr (.inl ⟨w, rfl, rfl⟩)
    · cases w with
      | nil => exact .inl ⟨List.append_nil b', (List.cons.inj hs).2.symm⟩
      | cons d w =>
          obtain ⟨rfl, rfl⟩ := List.cons.inj hs
          exact .inr (.inr ⟨w, rfl, rfl⟩)
  · rintro (⟨rfl, rfl⟩ | ⟨w, rfl, rfl⟩ | ⟨w, rfl, rfl⟩)
    · rfl
    · rw [List.append_assoc, List.cons_append]
    · rw [List.append_assoc, List.cons_append]

theorem joined_toList (b s : String) : (b ++ ":" ++ s).toList = b.toList ++ ':' :: s.toList := by
  rw [String.toList_append, String.toList_append, List.append_assoc]
  rfl

theorem eq_joined_iff (a b : String) (w : List Char) :
    a = b ++ ":" ++ String.ofList w ↔ a.toList = b.toList ++ ':' :: w := by
  rw [← String.toList_inj, joined_toList, String.toList_ofList]

theorem eq_joined_iff' (a b : String) (w : List Char) :
    a = String.ofList w ++ ":" ++ b ↔ a.toList = w ++ ':' :: b.toList := by
  rw [← String.toList_inj, joined_toList, String.toList_ofList]

/-- **When two ids are the same.** -/
theorem key_eq_iff (b s b' s' : String) : b ++ ":" ++ s = b' ++ ":" ++ s' ↔ Collide b s b' s' := by
  have htexts : ∀ P : String → Prop, (∃ w, P w) ↔ ∃ w : List Char, P (String.ofList w) := fun P =>
    ⟨fun ⟨w, h⟩ => ⟨w.toList, by rwa [String.ofList_toList]⟩, fun ⟨w, h⟩ => ⟨String.ofList w, h⟩⟩
  unfold Collide
  rw [← String.toList_inj, joined_toList, joined_toList, append_cons_eq_iff, String.toList_inj, String.toList_inj,
    htexts, htexts]
  simp only [eq_joined_iff, eq_joined_iff']

/-! ## The ids of a turn -/

/-- The ids that the provider gave in a response. -/
def named (response : List ToolUse) : List String := (response.map ToolUse.tool_use_id).filter (· ≠ "")

namespace Turn

/-- No id of the provider comes again in another response, is the number of an event without one, or is the word that
    stands for the acknowledgement. -/
structure Distinct (t : Turn) : Prop where
  responses : t.responses.Pairwise fun r r' => List.Disjoint (named r) (named r')
  numbers : t.uses.Pairwise fun use use' => (use.1.tool_use_id = "" → use'.1.tool_use_id ≠ toString use.2) ∧
    (use'.1.tool_use_id = "" → use.1.tool_use_id ≠ toString use'.2)
  ack : t.ack ≠ none → ∀ use ∈ t.uses, use.1.tool_use_id ≠ "auto_ack"

variable {t : Turn}

/-- Two events with ids of the provider have different ones. -/
def NamesDiffer (use use' : ToolUse) : Prop :=
  use.tool_use_id ≠ "" → use'.tool_use_id ≠ "" → use.tool_use_id ≠ use'.tool_use_id

theorem toString_inj {k k' : Nat} (h : toString k = toString k') : k = k' := by
  have hdigits : Nat.toDigits 10 k = Nat.toDigits 10 k' := String.ofList_injective h
  rw [← Nat.ofDigitChars_toDigits (b := 10) (n := k) (by decide) (by decide), hdigits,
    Nat.ofDigitChars_toDigits (by decide) (by decide)]

theorem suffix_ne_iff {use use' : ToolUse × Nat} (hnumber : use.2 ≠ use'.2) : suffix use ≠ suffix use' ↔
    NamesDiffer use.1 use'.1 ∧ (use.1.tool_use_id = "" → use'.1.tool_use_id ≠ toString use.2) ∧
      (use'.1.tool_use_id = "" → use.1.tool_use_id ≠ toString use'.2) := by
  have hword : ∀ k : Nat, "" ≠ toString k := fun k h => Nat.repr_ne_empty h.symm
  unfold suffix NamesDiffer
  by_cases h : use.1.tool_use_id = "" <;> by_cases h' : use'.1.tool_use_id = ""
  · rw [if_pos h, if_pos h', h, h']
    refine iff_of_true (fun heq => hnumber (toString_inj heq)) ⟨fun hne => absurd rfl hne, ?_, ?_⟩
    · exact fun _ => hword _
    · exact fun _ => hword _
  · rw [if_pos h, if_neg h']
    refine ⟨fun hne => ⟨fun hno => absurd h hno, fun _ => hne.symm, fun hno => absurd hno h'⟩, fun hall => ?_⟩
    exact (hall.2.1 h).symm
  · rw [if_neg h, if_pos h']
    exact ⟨fun hne => ⟨fun _ hno => absurd h' hno, fun hno => absurd hno h, fun _ => hne⟩, fun hall => hall.2.2 h'⟩
  · rw [if_neg h, if_neg h']
    exact ⟨fun hne => ⟨fun _ _ => hne, fun hno => absurd hno h, fun hno => absurd hno h'⟩, fun hall => hall.1 h h'⟩

theorem names_differ_iff (hids : ∀ r ∈ t.responses, (r.map ToolUse.tool_use_id).Nodup) :
    t.responses.flatten.Pairwise NamesDiffer ↔
      t.responses.Pairwise fun r r' => List.Disjoint (named r) (named r') := by
  rw [List.pairwise_flatten]
  have hwithin : ∀ r ∈ t.responses, r.Pairwise NamesDiffer := fun r hr =>
    (List.pairwise_map.mp (hids r hr)).imp fun hne _ _ => hne
  refine ⟨fun h => h.2.imp fun {r r'} hall => ?_, fun h => ⟨hwithin, h.imp fun {r r'} hdisjoint => ?_⟩⟩
  · intro id hid hid'
    obtain ⟨hmem, hne⟩ := List.mem_filter.mp hid
    obtain ⟨use, huse, rfl⟩ := List.mem_map.mp hmem
    obtain ⟨use', huse', heq⟩ := List.mem_map.mp (List.mem_filter.mp hid').1
    have hne : use.tool_use_id ≠ "" := of_decide_eq_true hne
    exact hall use huse use' huse' hne (by rwa [heq]) heq.symm
  · intro use huse use' huse' hne hne' heq
    refine hdisjoint (a := use.tool_use_id) ?_ ?_
    · exact List.mem_filter.mpr ⟨List.mem_map_of_mem huse, decide_eq_true hne⟩
    · exact List.mem_filter.mpr ⟨heq ▸ List.mem_map_of_mem huse', decide_eq_true hne⟩

/-- The number of an event is no word. -/
theorem toString_ne_auto_ack (k : Nat) : toString k ≠ "auto_ack" := by
  intro h
  have hmem : 'a' ∈ (toString k).toList := by
    rw [h]
    decide
  have hdigits : 'a' ∈ Nat.toDigits 10 k := by simpa using hmem
  have hdigit : 'a'.isDigit = true := Nat.isDigit_of_mem_toDigits (by decide) (by decide) hdigits
  cases hdigit

theorem suffix_ne_auto_ack (use : ToolUse × Nat) : suffix use ≠ "auto_ack" ↔ use.1.tool_use_id ≠ "auto_ack" := by
  unfold suffix
  split
  · rename_i h
    rw [h]
    exact iff_of_true (toString_ne_auto_ack _) (by decide)
  · rfl

/-- **The events of a turn have ids of their own**, in terms of what the provider said. -/
theorem suffixes_nodup_iff (hids : ∀ r ∈ t.responses, (r.map ToolUse.tool_use_id).Nodup) :
    t.suffixes.Nodup ↔ t.Distinct := by
  have hnumbers : t.uses.Pairwise fun use use' => use.2 ≠ use'.2 := by
    have hrange : (t.uses.map Prod.snd).Nodup := by
      rw [uses, List.zipIdx_map_snd]
      exact List.nodup_range'
    exact List.pairwise_map.mp hrange
  -- two events differ in their ids if neither takes its number for the other's id
  have huses : (t.uses.map suffix).Nodup ↔ t.responses.Pairwise (fun r r' => List.Disjoint (named r) (named r')) ∧
      t.uses.Pairwise fun use use' => (use.1.tool_use_id = "" → use'.1.tool_use_id ≠ toString use.2) ∧
        (use'.1.tool_use_id = "" → use.1.tool_use_id ≠ toString use'.2) := by
    have hnames : t.uses.Pairwise (fun use use' => NamesDiffer use.1 use'.1) ↔
        t.responses.Pairwise fun r r' => List.Disjoint (named r) (named r') := by
      rw [← names_differ_iff hids, ← List.pairwise_map, uses, List.zipIdx_map_fst]
    rw [List.Nodup, List.pairwise_map, ← hnames, ← List.pairwise_and_iff]
    refine ⟨fun h => (hnumbers.and h).imp fun {use use'} hboth => (suffix_ne_iff hboth.1).mp hboth.2, fun h => ?_⟩
    exact (hnumbers.and h).imp fun {use use'} hboth => (suffix_ne_iff hboth.1).mpr hboth.2
  have hack : (∀ s ∈ t.uses.map suffix, s ≠ "auto_ack") ↔ ∀ use ∈ t.uses, use.1.tool_use_id ≠ "auto_ack" := by
    rw [List.forall_mem_map]
    exact forall₂_congr fun use _ => suffix_ne_auto_ack use
  unfold suffixes
  cases hsender : t.ack with
  | none =>
      rw [Option.map_none, Option.toList_none, List.append_nil, huses]
      exact ⟨fun h => ⟨h.1, h.2, fun hno => absurd hsender hno⟩, fun h => ⟨h.responses, h.numbers⟩⟩
  | some ack =>
      rw [Option.map_some, Option.toList_some, List.nodup_append, huses]
      simp only [List.forall_mem_singleton, hack]
      refine ⟨fun h => ⟨h.1.1, h.1.2, fun _ => h.2.2⟩, fun h => ⟨⟨h.responses, h.numbers⟩, List.nodup_singleton _, ?_⟩⟩
      exact h.ack (by rw [hsender]; exact Option.some_ne_none ack)

theorem keys_nodup_iff (t : Turn) : t.keys.Nodup ↔ t.suffixes.Nodup := by
  refine List.nodup_map_iff fun s s' h => ?_
  rw [key_eq_iff] at h
  have hlonger : ∀ {b w : String}, b ≠ b ++ ":" ++ w := by
    intro b w heq
    have hlength := congrArg (fun s : String => s.toList.length) heq
    simp only [joined_toList, List.length_append, List.length_cons] at hlength
    omega
  obtain ⟨-, heq⟩ | ⟨w, hbase, -⟩ | ⟨w, hbase, -⟩ := h
  · exact heq
  · exact absurd hbase hlonger
  · exact absurd hbase hlonger

end Turn

/-! ## The ids of several turns -/

/-- No event of the one turn has parts that read like those of an event of the other. -/
def KeptApart (t t' : Turn) : Prop := ∀ s ∈ t.suffixes, ∀ s' ∈ t'.suffixes, ¬ Collide t.base s t'.base s'

/-- **The parts keep the events apart**: within each turn, and between any two. -/
def Apart (turns : List Turn) : Prop := (∀ t ∈ turns, t.Distinct) ∧ turns.Pairwise KeptApart

theorem all_keys_nodup_iff {turns : List Turn}
    (hids : ∀ t ∈ turns, ∀ r ∈ t.responses, (r.map ToolUse.tool_use_id).Nodup) :
    (turns.flatMap Turn.keys).Nodup ↔ Apart turns := by
  have hwithin : ∀ t ∈ turns, (t.keys.Nodup ↔ t.Distinct) := fun t ht =>
    t.keys_nodup_iff.trans (Turn.suffixes_nodup_iff (hids t ht))
  have hbetween : ∀ {t t' : Turn}, List.Disjoint t.keys t'.keys ↔ KeptApart t t' := by
    intro t t'
    constructor
    · intro hdisjoint s hs s' hs' hcollide
      refine hdisjoint (List.mem_map_of_mem hs) ?_
      rw [(key_eq_iff _ _ _ _).mpr hcollide]
      exact List.mem_map_of_mem hs'
    · intro hapart key hkey hkey'
      obtain ⟨s, hs, rfl⟩ := List.mem_map.mp hkey
      obtain ⟨s', hs', heq⟩ := List.mem_map.mp hkey'
      exact hapart s hs s' hs' ((key_eq_iff _ _ _ _).mp heq.symm)
  rw [List.nodup_flatMap]
  refine and_congr (forall₂_congr hwithin) ?_
  exact ⟨fun h => h.imp hbetween.mp, fun h => h.imp hbetween.mpr⟩

/-- The calls of a turn come under its ids. -/
theorem Turn.invocations_cid (t : Turn) : t.invocations.map Invocation.cid = t.keys := by
  have hne : ∀ b s : String, (b ++ ":" ++ s) ≠ "" := by
    intro b s heq
    have hlist := congrArg String.toList heq
    rw [joined_toList] at hlist
    exact List.append_ne_nil_of_right_ne_nil _ (List.cons_ne_nil _ _) hlist
  have huse : ∀ use : ToolUse × Nat,
      (tool_invocation t.agent_id t.msg use.1 use.2 t.now).cid = t.base ++ ":" ++ suffix use :=
    fun use => if_neg (hne _ _)
  have hack : ∀ ack : String × String,
      (ack_invocation t.agent_id ack.1 ack.2 t.msg t.now).cid = t.base ++ ":" ++ "auto_ack" := by
    intro ack
    -- the source writes the suffix with its colon
    have htext : t.base ++ ":auto_ack" = t.base ++ ":" ++ "auto_ack" := by
      rw [String.append_assoc]
      rfl
    rw [← htext]
    refine if_neg (htext ▸ hne t.base "auto_ack")
  unfold invocations keys suffixes
  rw [List.map_append, List.map_append, List.map_map, List.map_map]
  congr 1
  · exact List.map_congr_left fun use _ => huse use
  · cases t.ack with
    | none => rfl
    | some ack => exact congrArg (fun key => [key]) (hack ack)

end AgentRuntime

/-! ## Who writes the cache -/

namespace World

variable {defs : ToolDefs} {cid : String}

/-- There is no result under the id, and no call under it waits. -/
structure Unused (cid : String) (w : World) : Prop where
  cache : w.co.tools_completed cid = none
  calls : ∀ slot call, w.calls slot = some (.tool call) → call.cid ≠ cid

/-- A step that starts no call under the id leaves it unused. -/
theorem Unused.step {w : World} (h : Unused cid w) {label : Label}
    (hother : ∀ i, invocation label = some i → i.cid ≠ cid) : Unused cid (step defs w label) := by
  have hspares : Spares defs cid w label := by
    cases label with
    | invoke slot i => exact fun heq => absurd heq (hother i rfl)
    | executor_ends slot outcome => exact fun call hcall => h.calls slot call hcall
    | call | attempts_end | service => trivial
  have hsame : (World.step defs w label).co.tools_completed cid = w.co.tools_completed cid := hspares.same_result
  refine ⟨hsame.trans h.cache, ?_⟩
  have hs := stepped defs w label
  generalize World.step defs w label = w' at hs ⊢
  -- a call that takes off changes its own slot, one that lands frees it
  have htaken : ∀ slot (flight : InFlight) co, (∀ call, flight = .tool call → call.cid ≠ cid) →
      ∀ slot' call, (w.take_off slot flight co).calls slot' = some (.tool call) → call.cid ≠ cid := by
    intro slot flight co hflight slot' call hcall
    by_cases heq : slot' = slot
    · rw [heq, take_off_self] at hcall
      exact hflight call (Option.some.inj hcall)
    · rw [take_off_of_ne _ _ _ heq] at hcall
      exact h.calls slot' call hcall
  have hlanded : ∀ slot co slot' call, (w.land slot co).calls slot' = some (.tool call) → call.cid ≠ cid := by
    intro slot co slot' call hcall
    by_cases heq : slot' = slot
    · rw [heq, land_self] at hcall
      cases hcall
    · rw [land_of_ne _ _ heq] at hcall
      exact h.calls slot' call hcall
  cases hs with
  | idle | ran | turned_away | refused => exact h.calls
  | invoked slot i tool estimate _ _ _ _ =>
      refine htaken slot _ _ fun call hcall => ?_
      obtain rfl := InFlight.tool.inj hcall
      exact hother i rfl
  | called slot r service_def action_def estimate _ _ _ => exact htaken slot _ _ fun call hcall => nomatch hcall
  | executed slot outcome call hslot => exact hlanded slot _
  | answered slot attempt call hslot => exact hlanded slot _

/-- **A result in the cache** comes from an earlier call under its id. -/
theorem cache_holds_invoked {co : Company} (hempty : ∀ cid, co.tools_completed cid = none) (run : List Label)
    (hnone : ∀ i ∈ run.filterMap invocation, i.cid ≠ cid) :
    (exec (World.step defs) (idle co) run).co.tools_completed cid = none := by
  have hall : ∀ label ∈ run, ∀ i, invocation label = some i → i.cid ≠ cid := fun label hlabel i hi =>
    hnone i (List.mem_filterMap.mpr ⟨label, hlabel, hi⟩)
  have hunused : Unused cid (exec (World.step defs) (idle co) run) := by
    have hstart : Unused cid (idle co) := ⟨hempty cid, fun slot call hcall => nomatch hcall⟩
    clear hnone
    generalize idle co = w at hstart ⊢
    induction run generalizing w with
    | nil => exact hstart
    | cons label run ih =>
        refine ih (fun label' hlabel => hall label' (List.mem_cons_of_mem _ hlabel)) _ ?_
        exact hstart.step (hall label List.mem_cons_self)
  exact hunused.cache

end World

namespace AgentRuntime

/-- The tool calls of the run are events of these turns, each at most once. -/
def Carries (turns : List Turn) (run : List Label) : Prop :=
  (run.filterMap World.invocation).Subperm (turns.flatMap Turn.invocations)

/-- **The ids separate the events**: different events have different ids, and in no interleaving of the turns' calls is
    a call answered from the cache. -/
structure Separate (turns : List Turn) : Prop where
  keys : (turns.flatMap Turn.keys).Nodup
  answers : ∀ defs co run, (∀ cid, co.tools_completed cid = none) → Carries turns run →
    ∀ pre slot i post, run = pre ++ .invoke slot i :: post →
      (exec (World.step defs) (.idle co) pre).co.tools_completed i.cid = none

/-- **The ids are separate exactly if their parts keep them apart**, for all turns of all agents in which the ids of
    each response are different ones. -/
theorem calls_separate_iff {turns : List Turn}
    (hids : ∀ t ∈ turns, ∀ r ∈ t.responses, (r.map ToolUse.tool_use_id).Nodup) : Separate turns ↔ Apart turns := by
  rw [← all_keys_nodup_iff hids]
  refine ⟨Separate.keys, fun hkeys => ⟨hkeys, fun defs co run hempty hcarries pre slot i post hrun => ?_⟩⟩
  have hcids : (turns.flatMap Turn.invocations).map Invocation.cid = turns.flatMap Turn.keys := by
    rw [List.map_flatMap]
    exact List.flatMap_congr fun t _ => t.invocations_cid
  obtain ⟨calls, hperm, hsub⟩ := hcarries
  have hnodup : ((run.filterMap World.invocation).map Invocation.cid).Nodup := by
    rw [← (hperm.map Invocation.cid).nodup_iff]
    rw [← hcids] at hkeys
    exact hkeys.sublist (hsub.map Invocation.cid)
  refine World.cache_holds_invoked hempty pre fun earlier hearlier heq => ?_
  -- an earlier call with this id would be in the list twice
  rw [hrun, List.filterMap_append, List.map_append, List.nodup_append] at hnodup
  have hfirst : (Label.invoke slot i :: post).filterMap World.invocation = i :: post.filterMap World.invocation := rfl
  exact hnodup.2.2 earlier.cid (List.mem_map_of_mem hearlier) i.cid (by rw [hfirst]; exact List.mem_cons_self) heq

/-- A message of the CEO. -/
def greeting (correlation_id : String) : IncomingMessage :=
  { content := "Hi", kind := .AGENT_MESSAGE, from_agent := some "ceo", correlation_id }

/-- A turn on it that uses tools, and does not answer. -/
def unanswered (agent_id correlation_id : String) (uses : List ToolUse) : Turn :=
  { agent_id, msg := greeting correlation_id, responses := [uses], ack := some ("ceo", ""), now := 0 }

/-- The turns of two agents, with the same id of the provider. -/
theorem two_messages_separate :
    Separate [unanswered "x" "m1" [⟨"tu1", "search", []⟩], unanswered "y" "m2" [⟨"tu1", "search", []⟩]] ↔
      Apart [unanswered "x" "m1" [⟨"tu1", "search", []⟩], unanswered "y" "m2" [⟨"tu1", "search", []⟩]] :=
  calls_separate_iff (by decide)

/-- A tool that sends, for free. -/
def send_tool : ToolDef :=
  { name := "send_message", schema := .ok, output_schema := "SendMessageOut", conforms := fun _ => true
    roles_allowed := none }

/-- A company whose agents are active, and have done nothing yet. -/
def quiet_company : Company :=
  { Company.opened .quiet ⟨10000⟩ "x" with agents := fun _ => some ⟨.MEMBER, true⟩ }

/-- The acknowledgement of the message. -/
def greeting_ack (agent_id : String) : Invocation := ack_invocation agent_id "ceo" "" (greeting "m1") 0

/-- The acknowledgement of the first agent. -/
def first_ack : List Label := [.invoke 0 (greeting_ack "x"), .executor_ends 0 (.ok ⟨"SendMessageOut", []⟩)]

/-- The CEO writes to two agents under one correlation id. The second one's acknowledgement is answered with the result
    of the first one's, and not sent. -/
theorem second_ack_replayed :
    ¬ ∀ turns : List Turn, (∀ t ∈ turns, ∀ r ∈ t.responses, (r.map ToolUse.tool_use_id).Nodup) → Separate turns := by
  intro h
  have hseparate := h [unanswered "x" "m1" [], unanswered "y" "m1" []] (by decide)
  have hcarries : Carries [unanswered "x" "m1" [], unanswered "y" "m1" []]
      (first_ack ++ [.invoke 0 (greeting_ack "y")]) := (List.Sublist.refl _).subperm
  have hnone := hseparate.answers [send_tool] quiet_company _ (fun _ => rfl) hcarries
    first_ack 0 (greeting_ack "y") [] rfl
  have hcached : ((exec (World.step [send_tool]) (.idle quiet_company) first_ack).co.tools_completed
      (greeting_ack "y").cid).isSome = true := by decide +kernel
  rw [hnone] at hcached
  cases hcached

end AgentRuntime

end CompanyFactory
