import CompanyFactory.Connector.Spec
import Mathlib.Data.Set.Insert
import Mathlib.Data.String.Basic

/-!
# `Connector.Allowlist` — pairs kept as strings

The allowlist is a set of strings: a service name for a blanket entry, `service:action` for a narrow one. What it
stands for is a set of pairs of a service and, for a narrow entry, an action. The rate limiter keeps its buckets
under strings of the second form.

* `granted` — the set of pairs that a sequence of calls leaves.
* `key_inj_iff`, `faithful_iff` — the strings stand for the pairs exactly when no service name is another one with a
  colon and something behind it.
* `allowlist_faithful_iff` — this for the entries, their use and the rate-limit keys together.
-/

namespace CompanyFactory

namespace Allowlist

/-- A call that changes the allowlist. -/
inductive Call where
  | allow (service : String) (action : Option String)
  | revoke (service : String) (action : Option String)
  deriving DecidableEq

def Call.service : Call → String
  | .allow service _ => service
  | .revoke service _ => service

def step (list : Allowlist) : Call → Allowlist
  | .allow service action => list.allow service action
  | .revoke service action => list.revoke service action

/-- The allowlist after the calls; it starts empty. -/
def run (calls : List Call) : Allowlist := calls.foldl step ⟨[]⟩

/-- The key of the rate limiter. -/
def rate_key (service action : String) : String := service ++ ":" ++ action

/-! ## The pairs -/

abbrev Pair := String × Option String

def grant (pairs : Set Pair) : Call → Set Pair
  | .allow service action => insert (service, action) pairs
  | .revoke service action => pairs \ {(service, action)}

/-- The pairs after the calls, applied in order. -/
def granted (calls : List Call) : Set Pair := calls.foldl grant ∅

/-- The pairs allow the action, by itself or with its service. -/
def Permits (pairs : Set Pair) (service action : String) : Prop :=
  (service, some action) ∈ pairs ∨ (service, none) ∈ pairs

/-- None of the names is another one with a colon and something behind it. -/
def Unmixed (names : Set String) : Prop := ∀ s ∈ names, ∀ s' ∈ names, ∀ m, s ≠ s' ++ ":" ++ m

/-! ## Keys -/

/-- Two texts with a colon in them are cut alike, or one is cut behind the other. -/
theorem colon_cut {s a s' a' : String} (h : s ++ ":" ++ a = s' ++ ":" ++ a') :
    (s = s' ∧ a = a') ∨ (∃ m, s = s' ++ ":" ++ m) ∨ ∃ m, s' = s ++ ":" ++ m := by
  have hchars : s.toList ++ ':' :: a.toList = s'.toList ++ ':' :: a'.toList := by
    have hlist := congrArg String.toList h
    simpa using hlist
  -- a text is what its characters are
  have htext : ∀ {t t' : String} {m : List Char}, t.toList = t'.toList ++ ':' :: m → t = t' ++ ":" ++ String.ofList m := by
    intro t t' m ht
    rw [← String.toList_inj, ht]
    simp
  rcases List.append_eq_append_iff.mp hchars with ⟨m, hs', ha⟩ | ⟨m, hs, ha'⟩
  · cases m with
    | nil =>
        rw [List.append_nil] at hs'
        exact .inl ⟨(String.toList_inj.mp hs').symm, String.toList_inj.mp (List.cons.inj ha).2⟩
    | cons c m =>
        obtain ⟨rfl, -⟩ := List.cons.inj ha
        exact .inr (.inr ⟨_, htext hs'⟩)
  · cases m with
    | nil =>
        rw [List.append_nil] at hs
        exact .inl ⟨String.toList_inj.mp hs, (String.toList_inj.mp (List.cons.inj ha').2).symm⟩
    | cons c m =>
        obtain ⟨rfl, -⟩ := List.cons.inj ha'
        exact .inr (.inl ⟨_, htext hs⟩)

theorem ne_colon (s m : String) : s ≠ s ++ ":" ++ m := by
  intro h
  have hlen := congrArg String.length h
  have hcolon : ":".length = 1 := rfl
  rw [String.length_append, String.length_append, hcolon] at hlen
  omega

/-- **The keys are those of one pair only, exactly for unmixed names.** -/
theorem key_inj_iff (names : Set String) :
    (∀ s ∈ names, ∀ s' ∈ names, ∀ a a', key s a = key s' a' → s = s' ∧ a = a') ↔ Unmixed names := by
  constructor
  · intro hinj s hs s' hs' m hmix
    obtain ⟨-, hno⟩ := hinj s hs s' hs' none (some m) hmix
    cases hno
  · intro hun s hs s' hs' a a' h
    cases a with
    | none =>
        cases a' with
        | none => exact ⟨h, rfl⟩
        | some a' => exact absurd h (hun s hs s' hs' a')
    | some a =>
        cases a' with
        | none => exact absurd h.symm (hun s' hs' s hs a)
        | some a' =>
            rcases colon_cut h with ⟨rfl, rfl⟩ | ⟨m, hm⟩ | ⟨m, hm⟩
            · exact ⟨rfl, rfl⟩
            · exact absurd hm (hun s hs s' hs' m)
            · exact absurd hm (hun s' hs' s hs m)

/-- The same for the keys of the rate limiter. -/
theorem rate_key_inj_iff (names : Set String) :
    (∀ s ∈ names, ∀ s' ∈ names, ∀ a a', rate_key s a = rate_key s' a' → s = s' ∧ a = a') ↔ Unmixed names := by
  constructor
  · intro hinj s hs s' hs' m hmix
    -- the action `a` of the longer name is the action `m:a` of the shorter one
    have hshared : rate_key s "a" = rate_key s' (m ++ ":" ++ "a") := by
      unfold rate_key
      rw [hmix]
      simp only [String.append_assoc]
    exact ne_colon s' m ((hinj s hs s' hs' _ _ hshared).1.symm.trans hmix)
  · intro hun s hs s' hs' a a' h
    rcases colon_cut h with hsame | ⟨m, hm⟩ | ⟨m, hm⟩
    · exact hsame
    · exact absurd hm (hun s hs s' hs' m)
    · exact absurd hm (hun s' hs' s hs m)

/-! ## Runs -/

/-- The entries are the keys of the pairs. -/
structure Stands (names : Set String) (list : Allowlist) (pairs : Set Pair) : Prop where
  entries : ∀ k, k ∈ list.entries ↔ ∃ p ∈ pairs, key p.1 p.2 = k
  known : ∀ p ∈ pairs, p.1 ∈ names

variable {names : Set String}

theorem Stands.empty : Stands names ⟨[]⟩ ∅ where
  entries := fun _ => ⟨fun h => absurd h List.not_mem_nil, fun ⟨_, h, _⟩ => absurd h (Set.notMem_empty _)⟩
  known := fun _ h => absurd h (Set.notMem_empty _)

/-- One call keeps this. -/
theorem Stands.step (hun : Unmixed names) {list : Allowlist} {pairs : Set Pair} (h : Stands names list pairs)
    {call : Call} (hcall : call.service ∈ names) : Stands names (list.step call) (grant pairs call) := by
  cases call with
  | allow service action =>
      constructor
      · intro k
        show k ∈ key service action :: list.entries ↔ _
        rw [List.mem_cons, h.entries]
        constructor
        · rintro (rfl | ⟨p, hp, rfl⟩)
          · exact ⟨(service, action), Set.mem_insert _ _, rfl⟩
          · exact ⟨p, Set.mem_insert_of_mem _ hp, rfl⟩
        · rintro ⟨p, rfl | hp, rfl⟩
          · exact .inl rfl
          · exact .inr ⟨p, hp, rfl⟩
      · rintro p (rfl | hp)
        · exact hcall
        · exact h.known p hp
  | revoke service action =>
      constructor
      · intro k
        show k ∈ list.entries.filter (· ≠ key service action) ↔ _
        rw [List.mem_filter, h.entries, decide_eq_true_iff]
        constructor
        · rintro ⟨⟨p, hp, rfl⟩, hne⟩
          exact ⟨p, ⟨hp, fun hpair => hne (by rw [hpair])⟩, rfl⟩
        · rintro ⟨p, ⟨hp, hne⟩, rfl⟩
          refine ⟨⟨p, hp, rfl⟩, fun hkey => hne ?_⟩
          -- no other pair has the key that is discarded
          obtain ⟨hs, ha⟩ := (key_inj_iff names).mpr hun p.1 (h.known p hp) service hcall _ _ hkey
          exact Prod.ext hs ha
      · rintro p ⟨hp, -⟩
        exact h.known p hp

theorem Stands.run (hun : Unmixed names) {calls : List Call} (hcalls : ∀ c ∈ calls, c.service ∈ names) :
    Stands names (run calls) (granted calls) := by
  have hfold : ∀ (cs : List Call), (∀ c ∈ cs, c.service ∈ names) → ∀ list pairs, Stands names list pairs →
      Stands names (cs.foldl Allowlist.step list) (cs.foldl grant pairs) := by
    intro cs
    induction cs with
    | nil => exact fun _ _ _ h => h
    | cons c cs ih =>
        intro hcs list pairs h
        obtain ⟨hc, hrest⟩ := List.forall_mem_cons.mp hcs
        exact ih hrest _ _ (h.step hun hc)
  exact hfold calls hcalls _ _ .empty

theorem Stands.is_allowed_iff (hun : Unmixed names) {list : Allowlist} {pairs : Set Pair}
    (h : Stands names list pairs) {service : String} (hservice : service ∈ names) (action : String) :
    list.is_allowed service action = true ↔ Permits pairs service action := by
  have hkey : ∀ a, key service a ∈ list.entries ↔ (service, a) ∈ pairs := by
    intro a
    rw [h.entries]
    constructor
    · rintro ⟨p, hp, heq⟩
      obtain ⟨hs, ha⟩ := (key_inj_iff names).mpr hun p.1 (h.known p hp) service hservice _ _ heq
      rwa [← hs, ← ha]
    · exact fun hp => ⟨_, hp, rfl⟩
  have hblanket := hkey none
  have hnarrow := hkey (some action)
  unfold is_allowed Permits
  rw [Bool.or_eq_true, List.contains_iff_mem, List.contains_iff_mem, hnarrow, or_comm]
  exact or_congr Iff.rfl hblanket

/-- **The allowlist is the set it was given, exactly for unmixed names.** -/
theorem faithful_iff (names : Set String) :
    (∀ calls : List Call, (∀ c ∈ calls, c.service ∈ names) → ∀ s ∈ names, ∀ a,
        (run calls).is_allowed s a = true ↔ Permits (granted calls) s a) ↔ Unmixed names := by
  constructor
  · rintro hlaw s hs s' hs' m rfl
    -- the narrow entry of one service reads as the blanket entry of the other
    have hcalls : ∀ c ∈ [Call.allow s' (some m)], c.service ∈ names := by
      rw [List.forall_mem_singleton]
      exact hs'
    have hallowed : (run [.allow s' (some m)]).is_allowed (s' ++ ":" ++ m) "" = true := by
      unfold is_allowed
      rw [Bool.or_eq_true, List.contains_iff_mem]
      exact .inl (List.mem_singleton.mpr rfl)
    have hpermits := (hlaw _ hcalls _ hs "").mp hallowed
    simp only [Permits, granted, List.foldl, grant, Set.mem_insert_iff, Set.mem_empty_iff_false, Prod.mk.injEq,
      reduceCtorEq, and_false, or_false] at hpermits
    exact ne_colon s' m hpermits.1.symm
  · exact fun hun calls hcalls s hs a => (Stands.run hun hcalls).is_allowed_iff hun hs a

/-- **When entries and keys stand for pairs**: exactly when none of the service names that are admitted is another one
with a colon and something behind it. -/
theorem allowlist_faithful_iff (names : Set String) :
    ((∀ calls : List Call, (∀ c ∈ calls, c.service ∈ names) → ∀ s ∈ names, ∀ a,
          (run calls).is_allowed s a = true ↔ Permits (granted calls) s a) ∧
        (∀ s ∈ names, ∀ s' ∈ names, ∀ a a', key s a = key s' a' → s = s' ∧ a = a') ∧
        (∀ s ∈ names, ∀ s' ∈ names, ∀ a a', rate_key s a = rate_key s' a' → s = s' ∧ a = a')) ↔
      Unmixed names := by
  rw [faithful_iff, key_inj_iff, rate_key_inj_iff, and_self, and_self]

/-- A service `http:get` shares its entry with the action `get` of the service `http`. -/
theorem blanket_shared :
    (run [.allow "http:get" none]).is_allowed "http" "get" = true ∧
      ¬ Permits (granted [.allow "http:get" none]) "http" "get" ∧
      key "http:get" none = key "http" (some "get") ∧ rate_key "http:get" "a" = rate_key "http" "get:a" := by
  refine ⟨by decide, ?_, by decide, by decide⟩
  simp [Permits, granted, grant]

/-! ## The gateway -/

/-- What passes the gates was granted, under unmixed names. -/
theorem permits_of_admitted (hun : Unmixed names) {co : Company} {r : ConnectorRequest} {calls : List Call}
    (hlist : co.allowlist = run calls) (hcalls : ∀ c ∈ calls, c.service ∈ names) (hservice : r.service ∈ names)
    {service_def : ServiceDef} {action_def : ActionDef} {estimate : Money}
    (h : Connector.run_gates co r = .admitted service_def action_def estimate) :
    Permits (granted calls) r.service r.action := by
  have hallowed : co.allowlist.is_allowed r.service r.action = true := by
    unfold Connector.run_gates at h
    split at h
    · cases h
    · split at h
      · cases h
      · split at h
        · cases h
        · rename_i hno
          simpa using hno
  rw [hlist] at hallowed
  exact ((Stands.run hun hcalls).is_allowed_iff hun hservice r.action).mp hallowed

end Allowlist

end CompanyFactory
