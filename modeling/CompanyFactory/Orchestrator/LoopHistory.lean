import CompanyFactory.Lib.Run
import CompanyFactory.Lib.Window
import CompanyFactory.Orchestrator.LoopDetector
import Mathlib.Data.List.Chain

/-!
# `Orchestrator.LoopHistory` — the loop detector against the history of its messages

A message is part of a structural loop if its recipient is pestered (`Pestered`: the last messages to it all came from
this sender) or if the two agents play ping-pong (`PingPong`: the last messages between them alternate in direction).

The detector has two windows for this, and a message that pesters its recipient **never reaches the second one**: the
call returns before it. The window of a pair is therefore the end of the history without such messages (`Remembers`).

* `flagged_iff` — what the detector flags, over the history of its messages.
* `matches_history` — in every run whose pairs have no such message in the part of the window that counts, a message is
  flagged exactly if it is part of a loop.
-/

namespace CompanyFactory

open Machine

namespace Orchestrator

namespace LoopDetector

/-- What a call of `check` is about. -/
structure Message where
  from_agent : Option String
  to_agent : String
  content : String

def Message.edge (m : Message) : Edge := (m.from_agent, m.to_agent)

def step (d : LoopDetector) (m : Message) : LoopDetector := (d.check m.from_agent m.to_agent m.content).2

/-- Is the message flagged as a structural loop? -/
def flagged (d : LoopDetector) (m : Message) : Bool :=
  decide ((d.check m.from_agent m.to_agent m.content).1 = some "structural")

/-! ## Loops of a history -/

/-- The messages to a recipient. -/
def received (recipient : String) (hist : List Edge) : List Edge := hist.filter fun e => e.2 = recipient

/-- Is the message from one of the two to the other? -/
def in_pair (a b : String) (e : Edge) : Bool := e = (some a, b) || e = (some b, a)

/-- The messages between two agents, in both directions. -/
def between (a b : String) (hist : List Edge) : List Edge := hist.filter (in_pair a b)

/-- **The recipient is pestered**: the last messages to it all came from this sender. -/
def Pestered (cfg : LoopDetectorConfig) (hist : List Edge) (edge : Edge) : Prop :=
  cfg.structural_threshold ≤ (received edge.2 hist).length ∧
    ∀ e ∈ (received edge.2 hist).rtake cfg.structural_threshold, e.1 = edge.1

instance (cfg : LoopDetectorConfig) (hist : List Edge) (edge : Edge) : Decidable (Pestered cfg hist edge) :=
  inferInstanceAs (Decidable (_ ∧ _))

/-- The last messages of the list alternate. -/
def Alternating (cfg : LoopDetectorConfig) (msgs : List Edge) : Prop :=
  cfg.pingpong_threshold * 2 ≤ msgs.length ∧ (msgs.rtake (cfg.pingpong_threshold * 2)).IsChain (· ≠ ·)

/-- **The two agents play ping-pong**: the last messages between them strictly alternate in direction. -/
def PingPong (cfg : LoopDetectorConfig) (hist : List Edge) (edge : Edge) : Prop :=
  ∃ sender, edge.1 = some sender ∧ Alternating cfg (between sender edge.2 hist)

/-- The message, the last one of the history, is part of a loop. -/
def Looping (cfg : LoopDetectorConfig) (hist : List Edge) (edge : Edge) : Prop :=
  Pestered cfg hist edge ∨ PingPong cfg hist edge

/-- The thresholds are positive, and not above the window. -/
structure Sized (cfg : LoopDetectorConfig) : Prop where
  structural : 0 < cfg.structural_threshold ∧ cfg.structural_threshold ≤ cfg.structural_window
  pingpong : 0 < cfg.pingpong_threshold ∧ cfg.pingpong_threshold * 2 ≤ cfg.structural_window

/-! ## The two tests -/

section Tests

variable {cfg : LoopDetectorConfig} {a b : Edge} {edge : Edge} {win : List Edge}

theorem last_n_eq {n : Nat} (hn : 0 < n) (xs : List Edge) : last_n n xs = xs.rtake n := if_neg (Nat.ne_of_gt hn)

theorem push_window_eq (n : Nat) (xs : List Edge) (e : Edge) : push_window n xs e = (xs ++ [e]).rtake n := by
  rw [push_window, List.rtake, List.length_append, List.length_singleton]

/-- On messages of two kinds, to alternate is to start with the one, and never to repeat oneself. -/
theorem alternates_iff (hne : a ≠ b) {msgs : List Edge} (hkinds : ∀ e ∈ msgs, e = a ∨ e = b) :
    alternates a b msgs = true ↔ (∀ e ∈ msgs.head?, e = a) ∧ msgs.IsChain (· ≠ ·) := by
  induction msgs generalizing a b with
  | nil => simp [alternates]
  | cons e rest ih =>
      have hrest : ∀ e ∈ rest, e = b ∨ e = a := fun e he => (hkinds e (List.mem_cons_of_mem _ he)).symm
      rw [alternates, Bool.and_eq_true, decide_eq_true_eq, ih hne.symm hrest, List.isChain_cons]
      constructor
      · rintro ⟨rfl, hhead, hchain⟩
        refine ⟨fun x hx => (Option.some.inj hx).symm, fun x hx => ?_, hchain⟩
        rw [hhead x hx]
        exact hne
      · rintro ⟨hhead, hdiffers, hchain⟩
        obtain rfl : e = a := hhead e rfl
        refine ⟨rfl, fun x hx => ?_, hchain⟩
        rcases hrest x (List.mem_of_mem_head? hx) with rfl | rfl
        · rfl
        · exact absurd rfl (hdiffers x hx)

/-- The messages between two agents are of two kinds, one for each direction. -/
theorem is_pingpong_iff (hpos : 0 < cfg.pingpong_threshold) {x y : String} (hpair : ∀ e ∈ win, in_pair x y e = true) :
    is_pingpong cfg win = true ↔ Alternating cfg win := by
  unfold is_pingpong Alternating
  rw [Bool.and_eq_true, decide_eq_true_eq, last_n_eq (by omega)]
  refine and_congr_right fun hlength => ?_
  have hmem : ∀ e ∈ win.rtake (cfg.pingpong_threshold * 2), e = (some x, y) ∨ e = (some y, x) := by
    intro e he
    simpa [in_pair] using hpair e ((Recent.rtake_suffix _ _).mem he)
  have hlong : (win.rtake (cfg.pingpong_threshold * 2)).length = cfg.pingpong_threshold * 2 := by
    rw [Recent.length_rtake]
    omega
  generalize win.rtake (cfg.pingpong_threshold * 2) = msgs at hmem hlong
  -- two messages at least, as the threshold is positive
  match msgs, hlong with
  | [], hlong => simp only [List.length_nil] at hlong; omega
  | [_], hlong => simp only [List.length_singleton] at hlong; omega
  | a :: b :: rest, _ =>
      rw [Bool.and_eq_true, decide_eq_true_eq]
      by_cases hab : a = b
      · exact iff_of_false (fun h => h.1 hab) fun h => (List.isChain_cons_cons.mp h).1 hab
      · have hkinds : ∀ e ∈ a :: b :: rest, e = a ∨ e = b := by
          intro e he
          have ha := hmem a List.mem_cons_self
          have hb := hmem b (List.mem_cons_of_mem _ List.mem_cons_self)
          rcases hmem e he with rfl | rfl <;> rcases ha with rfl | rfl <;> rcases hb with rfl | rfl <;>
            first | exact .inl rfl | exact .inr rfl | exact absurd rfl hab
        rw [alternates_iff hab hkinds]
        exact ⟨fun h => h.2.2, fun h => ⟨hab, fun e he => (Option.some.inj he).symm, h⟩⟩

/-- The window of a recipient is enough to see who pesters it. -/
theorem is_pestering_iff (hsized : Sized cfg) (hist : List Edge) (edge : Edge) :
    is_pestering cfg ((received edge.2 hist).rtake cfg.structural_window) edge = true ↔ Pestered cfg hist edge := by
  obtain ⟨hpos, hle⟩ := hsized.structural
  unfold is_pestering Pestered
  rw [Bool.and_eq_true, decide_eq_true_eq, Recent.le_length_rtake hle, last_n_eq hpos, Recent.rtake_rtake hle,
    List.all_eq_true]
  refine and_congr_right fun _ => forall₂_congr fun e he => ?_
  have hto : e.2 = edge.2 := of_decide_eq_true (List.mem_filter.mp ((Recent.rtake_suffix _ _).mem he)).2
  rw [decide_eq_true_eq, Prod.ext_iff]
  exact ⟨fun h => h.1, fun h => ⟨h, hto⟩⟩

/-- The window of a pair is enough to see whether the two alternate. -/
theorem is_pingpong_window (hsized : Sized cfg) (x y : String) (hist : List Edge) :
    is_pingpong cfg ((between x y hist).rtake cfg.structural_window) = true ↔ Alternating cfg (between x y hist) := by
  obtain ⟨hpos, hle⟩ := hsized.pingpong
  have hpair : ∀ e ∈ (between x y hist).rtake cfg.structural_window, in_pair x y e = true :=
    fun e he => (List.mem_filter.mp ((Recent.rtake_suffix _ _).mem he)).2
  rw [is_pingpong_iff hpos hpair]
  unfold Alternating
  rw [Recent.le_length_rtake hle, Recent.rtake_rtake hle]

theorem pair_key_cases (a b : String) : (b < a ∧ pair_key a b = (b, a)) ∨ (¬ b < a ∧ pair_key a b = (a, b)) := by
  by_cases h : b < a
  · exact .inl ⟨h, if_pos h⟩
  · exact .inr ⟨h, if_neg h⟩

theorem pair_key_comm (a b : String) : pair_key a b = pair_key b a := by
  obtain ⟨hab, hkey⟩ | ⟨hab, hkey⟩ := pair_key_cases a b <;> obtain ⟨hba, hkey'⟩ | ⟨hba, hkey'⟩ := pair_key_cases b a
  · exact absurd hba (String.lt_asymm hab)
  · rw [hkey, hkey']
  · rw [hkey, hkey']
  · obtain rfl : a = b := String.le_antisymm hab hba
    rfl

/-- Both directions have one key, and no other pair has it. -/
theorem pair_key_eq_iff (a b x y : String) : pair_key x y = pair_key a b ↔ (x = a ∧ y = b) ∨ (x = b ∧ y = a) := by
  constructor
  · intro h
    rcases pair_key_cases x y with ⟨-, hx⟩ | ⟨-, hx⟩ <;> rcases pair_key_cases a b with ⟨-, ha⟩ | ⟨-, ha⟩ <;>
      rw [hx, ha] at h <;> obtain ⟨rfl, rfl⟩ := Prod.mk.inj h
    · exact .inl ⟨rfl, rfl⟩
    · exact .inr ⟨rfl, rfl⟩
    · exact .inr ⟨rfl, rfl⟩
    · exact .inl ⟨rfl, rfl⟩
  · rintro (⟨rfl, rfl⟩ | ⟨rfl, rfl⟩)
    · rfl
    · exact pair_key_comm _ _

end Tests

/-! ## What the detector remembers -/

/-- The message did not pester its recipient. -/
def harmless (cfg : LoopDetectorConfig) (seen : List Edge) (e : Edge) : Bool := !decide (Pestered cfg (seen ++ [e]) e)

/-- Does the message belong to the window of the pair? -/
def keyed (key : String × String) (e : Edge) : Bool := e.1.any fun sender => pair_key sender e.2 = key

/-- **The windows against the history**: a recipient's window is the end of all messages to it, a pair's window the end
    of the harmless messages of the pair. -/
structure Remembers (cfg : LoopDetectorConfig) (hist : List Edge) (d : LoopDetector) : Prop where
  config : d.cfg = cfg
  edges : ∀ recipient, d.edges recipient = (received recipient hist).rtake cfg.structural_window
  pairs : ∀ key, d.pair_edges key =
    ((Recent.sift (harmless cfg) [] hist).filter (keyed key)).rtake cfg.structural_window

section Memory

variable {cfg : LoopDetectorConfig} {hist : List Edge} {d : LoopDetector}

/-- The key of a pair selects the messages between the two. -/
theorem keyed_eq (a b : String) : keyed (pair_key a b) = in_pair a b := by
  funext ⟨sender, recipient⟩
  rw [Bool.eq_iff_iff]
  cases sender with
  | none => simp [keyed, in_pair]
  | some sender => simp [keyed, in_pair, pair_key_eq_iff]

theorem received_snoc (recipient : String) (e : Edge) :
    received recipient (hist ++ [e]) = received recipient hist ++ if e.2 = recipient then [e] else [] := by
  rw [received, List.filter_append, received]
  by_cases h : e.2 = recipient <;> simp [h]

/-- The recipient's window after the message. -/
theorem Remembers.edges_after (h : Remembers cfg hist d) (edge : Edge) (recipient : String) :
    Function.update d.edges edge.2 ((received edge.2 (hist ++ [edge])).rtake cfg.structural_window) recipient =
      (received recipient (hist ++ [edge])).rtake cfg.structural_window := by
  by_cases hto : recipient = edge.2
  · rw [hto, Function.update_self]
  · rw [Function.update_of_ne hto, h.edges, received_snoc, if_neg (Ne.symm hto), List.append_nil]

/-- What the sift lets through, after one more message. -/
theorem sift_harmless (edge : Edge) : Recent.sift (harmless cfg) [] (hist ++ [edge]) =
    Recent.sift (harmless cfg) [] hist ++ if harmless cfg hist edge then [edge] else [] := by
  have hsift := Recent.sift_snoc (harmless cfg) [] hist edge
  rwa [List.nil_append] at hsift

/-- A message that is not let through, or not for the pair, leaves the pair's window as it is. -/
theorem Remembers.pair_unchanged (h : Remembers cfg hist d) {edge : Edge} {key : String × String}
    (hno : harmless cfg hist edge = false ∨ keyed key edge = false) :
    d.pair_edges key =
      ((Recent.sift (harmless cfg) [] (hist ++ [edge])).filter (keyed key)).rtake cfg.structural_window := by
  have hnone : (if harmless cfg hist edge then [edge] else []).filter (keyed key) = [] := by
    obtain hharm | hkey := hno
    · rw [hharm]
      rfl
    · split
      · rw [List.filter_singleton, hkey]
        rfl
      · rfl
  rw [h.pairs, sift_harmless, List.filter_append, hnone, List.append_nil]

/-- A harmless message is pushed to its pair's window. -/
theorem Remembers.pair_push (h : Remembers cfg hist d) (sender recipient : String)
    (hharm : harmless cfg hist (some sender, recipient) = true) :
    push_window cfg.structural_window (d.pair_edges (pair_key sender recipient)) (some sender, recipient) =
      (between sender recipient
        (Recent.sift (harmless cfg) [] (hist ++ [(some sender, recipient)]))).rtake cfg.structural_window := by
  have hkeyed : keyed (pair_key sender recipient) (some sender, recipient) = true := by simp [keyed]
  rw [push_window_eq, h.pairs, Recent.rtake_push, between, ← keyed_eq, sift_harmless, hharm, if_pos rfl,
    List.filter_append, List.filter_singleton, hkeyed]
  rfl

/-- The two ways through `_record_edge`: the message pesters its recipient, or it is written into both windows. -/
theorem Remembers.record_edge (hsized : Sized cfg) (h : Remembers cfg hist d) (edge : Edge) :
    Remembers cfg (hist ++ [edge]) (d.record_edge edge.2 edge).2 ∧
      ((d.record_edge edge.2 edge).1 = true ↔ Pestered cfg (hist ++ [edge]) edge ∨
        ∃ sender, edge.1 = some sender ∧
          Alternating cfg (between sender edge.2 (Recent.sift (harmless cfg) [] (hist ++ [edge])))) := by
  have hwin : push_window d.cfg.structural_window (d.edges edge.2) edge =
      (received edge.2 (hist ++ [edge])).rtake cfg.structural_window := by
    rw [push_window_eq, h.config, h.edges, Recent.rtake_push, received_snoc, if_pos rfl]
  have hpestering := is_pestering_iff hsized (hist ++ [edge]) edge
  unfold LoopDetector.record_edge
  dsimp only
  rw [hwin, h.config]
  by_cases hpestered : Pestered cfg (hist ++ [edge]) edge
  · -- the call returns, and the window of the pair stays as it is
    rw [if_pos (hpestering.mpr hpestered)]
    have hharm : harmless cfg hist edge = false := by simp [harmless, hpestered]
    exact ⟨⟨rfl, h.edges_after edge, fun _ => h.pair_unchanged (.inl hharm)⟩, iff_of_true rfl (.inl hpestered)⟩
  · rw [if_neg (fun h => hpestered (hpestering.mp h))]
    obtain ⟨sender, recipient⟩ := edge
    cases sender with
    | none =>
        refine ⟨⟨rfl, h.edges_after _, fun _ => h.pair_unchanged (.inr rfl)⟩, iff_of_false Bool.false_ne_true ?_⟩
        rintro (h | ⟨sender, hsender, -⟩)
        · exact hpestered h
        · cases hsender
    | some sender =>
        have hharm : harmless cfg hist (some sender, recipient) = true := by simp [harmless, hpestered]
        dsimp only
        rw [h.pair_push sender recipient hharm]
        refine ⟨⟨rfl, h.edges_after (some sender, recipient), fun key => ?_⟩, ?_⟩
        -- one pair has the message; the windows of the others do not change
        · show Function.update d.pair_edges (pair_key sender recipient) _ key = _
          by_cases hkey : key = pair_key sender recipient
          · rw [hkey, Function.update_self, keyed_eq]
            rfl
          · have hother : keyed key (some sender, recipient) = false := by
              simpa [keyed] using Ne.symm hkey
            rw [Function.update_of_ne hkey]
            exact h.pair_unchanged (.inr hother)
        · have hwindow := is_pingpong_window hsized sender recipient
            (Recent.sift (harmless cfg) [] (hist ++ [(some sender, recipient)]))
          rw [hwindow]
          refine ⟨fun halternates => .inr ⟨sender, rfl, halternates⟩, ?_⟩
          rintro (h | ⟨sender', hsender, halternates⟩)
          · exact absurd h hpestered
          · obtain rfl := Option.some.inj hsender
            exact halternates

/-- `_record_content` leaves the edges alone. -/
theorem Remembers.record_content (h : Remembers cfg hist d) (recipient content : String) :
    Remembers cfg hist (d.record_content recipient content).2 := ⟨h.config, h.edges, h.pairs⟩

theorem check_snd (d : LoopDetector) (m : Message) : step d m = (d.record_edge m.to_agent m.edge).2 ∨
    step d m = ((d.record_edge m.to_agent m.edge).2.record_content m.to_agent m.content).2 := by
  unfold step check Message.edge
  rcases d.record_edge m.to_agent (m.from_agent, m.to_agent) with ⟨_ | _, d'⟩
  · right
    dsimp only
    rcases d'.record_content m.to_agent m.content with ⟨_ | _, d''⟩ <;> rfl
  · exact .inl rfl

theorem flagged_eq (d : LoopDetector) (m : Message) : flagged d m = (d.record_edge m.to_agent m.edge).1 := by
  unfold flagged check Message.edge
  rcases d.record_edge m.to_agent (m.from_agent, m.to_agent) with ⟨_ | _, d'⟩
  · refine decide_eq_false ?_
    dsimp only
    rcases d'.record_content m.to_agent m.content with ⟨_ | _, d''⟩ <;> simp
  · exact decide_eq_true rfl

theorem Remembers.step (hsized : Sized cfg) (h : Remembers cfg hist d) (m : Message) :
    Remembers cfg (hist ++ [m.edge]) (step d m) := by
  have hrecord : Remembers cfg (hist ++ [m.edge]) (d.record_edge m.to_agent m.edge).2 :=
    (h.record_edge hsized m.edge).1
  obtain heq | heq := check_snd d m
  · rw [heq]
    exact hrecord
  · rw [heq]
    exact hrecord.record_content _ _

/-- After every run, the windows are what the history says. -/
theorem remembers_run (hsized : Sized cfg) (lower : String → String) (msgs : List Message) :
    Remembers cfg (msgs.map Message.edge) (exec step (fresh cfg lower) msgs) := by
  induction msgs using List.reverseRecOn with
  | nil => exact ⟨rfl, fun _ => (List.rtake_nil _).symm, fun _ => (List.rtake_nil _).symm⟩
  | append_singleton msgs m ih =>
      rw [exec_snoc, List.map_append, List.map_singleton]
      exact ih.step hsized m

/-- **What the detector flags**: a message that pesters its recipient, or that continues a ping-pong among the harmless
    messages of the pair. -/
theorem flagged_iff (hsized : Sized cfg) (lower : String → String) (msgs : List Message) (m : Message) :
    flagged (exec step (fresh cfg lower) msgs) m = true ↔
      Pestered cfg ((msgs ++ [m]).map Message.edge) m.edge ∨ ∃ sender, m.from_agent = some sender ∧
        Alternating cfg
          (between sender m.to_agent (Recent.sift (harmless cfg) [] ((msgs ++ [m]).map Message.edge))) := by
  rw [flagged_eq, List.map_append, List.map_singleton]
  exact ((remembers_run hsized lower msgs).record_edge hsized m.edge).2

end Memory

/-! ## When this is a loop of the history -/

/-- The message pesters its recipient, or none of the last messages of its pair did. -/
def Undisturbed (cfg : LoopDetectorConfig) (hist : List Edge) (edge : Edge) : Prop :=
  Pestered cfg hist edge ∨ ∀ sender before e after, edge.1 = some sender → hist = before ++ e :: after →
    in_pair sender edge.2 e = true → (between sender edge.2 after).length < cfg.pingpong_threshold * 2 →
    ¬ Pestered cfg (before ++ [e]) e

section History

variable {cfg : LoopDetectorConfig}

/-- An undisturbed pair has its last messages in its window. -/
theorem alternating_sift {a b : String} {hist : List Edge}
    (hquiet : ∀ before e after, hist = before ++ e :: after → in_pair a b e = true →
      (between a b after).length < cfg.pingpong_threshold * 2 → ¬ Pestered cfg (before ++ [e]) e) :
    Alternating cfg (between a b (Recent.sift (harmless cfg) [] hist)) ↔ Alternating cfg (between a b hist) := by
  have hend : (between a b (Recent.sift (harmless cfg) [] hist)).rtake (cfg.pingpong_threshold * 2) =
      (between a b hist).rtake (cfg.pingpong_threshold * 2) := by
    apply Recent.rtake_sift (in_pair a b) _ hist
    intro before e after hhist hpair hlength
    simpa [harmless] using hquiet before e after hhist hpair hlength
  have hlength : cfg.pingpong_threshold * 2 ≤ (between a b (Recent.sift (harmless cfg) [] hist)).length ↔
      cfg.pingpong_threshold * 2 ≤ (between a b hist).length := by
    rw [← Recent.le_length_rtake le_rfl, hend, Recent.le_length_rtake le_rfl]
  unfold Alternating
  rw [hlength, hend]

/-- A message of an undisturbed pair is flagged exactly if it is part of a loop. -/
theorem flagged_iff_looping (hsized : Sized cfg) (lower : String → String) (msgs : List Message) (m : Message)
    (h : Undisturbed cfg ((msgs ++ [m]).map Message.edge) m.edge) :
    flagged (exec step (fresh cfg lower) msgs) m = true ↔ Looping cfg ((msgs ++ [m]).map Message.edge) m.edge := by
  rw [flagged_iff hsized]
  unfold Looping PingPong
  rcases h with hpestered | hquiet
  · exact iff_of_true (.inl hpestered) (.inl hpestered)
  · refine or_congr_right (exists_congr fun sender => and_congr_right fun hsender => ?_)
    exact alternating_sift fun before e after => hquiet sender before e after hsender

/-- **The detector matches the history.** In every run of undisturbed messages, each is flagged as a structural loop if
    and only if it is part of one. -/
theorem matches_history (hsized : Sized cfg) (lower : String → String) (run : List Message)
    (h : ∀ msgs m, msgs ++ [m] <+: run → Undisturbed cfg ((msgs ++ [m]).map Message.edge) m.edge) :
    ∀ msgs m, msgs ++ [m] <+: run → (flagged (exec step (fresh cfg lower) msgs) m = true ↔
      Looping cfg ((msgs ++ [m]).map Message.edge) m.edge) :=
  fun msgs m hmem => flagged_iff_looping hsized lower msgs m (h msgs m hmem)

/-- Nobody is pestered by fewer messages than the threshold. -/
theorem undisturbed_of_short {hist : List Edge} (h : hist.length < cfg.structural_threshold) (edge : Edge) :
    Undisturbed cfg hist edge := by
  refine .inr fun sender before e after _ hhist _ _ hpestered => ?_
  have hreceived : (received e.2 (before ++ [e])).length ≤ (before ++ [e]).length := List.length_filter_le _ _
  have hlength := congrArg List.length hhist
  have hthreshold := hpestered.1
  rw [List.length_append, List.length_cons] at hlength
  rw [List.length_append, List.length_singleton] at hreceived
  omega

end History

/-- A message between two agents. -/
def note (from_agent to_agent : String) : Message := { from_agent := some from_agent, to_agent, content := "?" }

/-- Four messages are a ping-pong of two. -/
theorem short_run_matches :
    flagged (exec step (fresh { pingpong_threshold := 2 } id) [note "a" "b", note "b" "a", note "a" "b"])
        (note "b" "a") = true ↔
      Looping { pingpong_threshold := 2 }
        (([note "a" "b", note "b" "a", note "a" "b"] ++ [note "b" "a"]).map Message.edge) (note "b" "a").edge := by
  refine matches_history ⟨by decide, by decide⟩ id
    ([note "a" "b", note "b" "a", note "a" "b"] ++ [note "b" "a"]) (fun msgs m hmem => ?_) _ _ List.prefix_rfl
  refine undisturbed_of_short ?_ _
  have hlength := hmem.length_le
  rw [List.length_map]
  exact Nat.lt_succ_of_le hlength

/-- Two agents write to each other, four times each; then a third one writes to the first, and the next message pesters
    its recipient. -/
def rally : List Message :=
  [note "a" "b", note "b" "a", note "a" "b", note "b" "a", note "a" "b", note "b" "a", note "a" "b", note "b" "a",
    note "c" "a", note "a" "b"]

/-- **The ping-pong goes on, and is not flagged**: the message before it is not in the window. -/
theorem rally_missed : ¬ ∀ (cfg : LoopDetectorConfig) (lower : String → String) (msgs : List Message) (m : Message),
    Sized cfg → (flagged (exec step (fresh cfg lower) msgs) m = true ↔
      Looping cfg ((msgs ++ [m]).map Message.edge) m.edge) := by
  intro h
  have hlooping : Looping {} ((rally ++ [note "b" "a"]).map Message.edge) (note "b" "a").edge :=
    .inr ⟨"b", rfl, by unfold Alternating; decide +kernel⟩
  have hflagged := (h {} id rally (note "b" "a") ⟨by decide, by decide⟩).mpr hlooping
  have hmissed : flagged (exec step (fresh {} id) rally) (note "b" "a") = false := by decide +kernel
  rw [hmissed] at hflagged
  cases hflagged

end LoopDetector

end Orchestrator

end CompanyFactory
