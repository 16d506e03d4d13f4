import CompanyFactory.InterCompany.Service

/-!
# `InterCompany.Receipts` — the outbox against what the targets took

`Truthful` compares the statuses of the rows with the hand-overs that a queue took (`received`). `Accounted` is what
makes it an invariant: a row that is not delivered has none, and **nothing was taken that has no row**, so that a
new row starts from nothing.

The lemmas are about the two lists alone: a row is added (`add_entry`) or gets a new status, and a hand-over is
added.
-/

namespace CompanyFactory

namespace InterCompany

variable {outbox : List CrossEntry} {handed : List Handover} {entry row : CrossEntry} {h : Handover}
  {id to_company : String}

/-- How often the queue of a company took the message with the id. -/
def received (handed : List Handover) (id to_company : String) : Nat :=
  handed.countP fun h => h.accepted && h.id = id && h.to_company = to_company

/-- **The outbox tells the truth**: a row is delivered exactly if its target took the message once, and a rejected
    message was never taken. -/
def Truthful (outbox : List CrossEntry) (handed : List Handover) : Prop :=
  ∀ row ∈ outbox, (row.status = .DELIVERED ↔ received handed row.id row.to_company = 1) ∧
    (row.status = .REJECTED → received handed row.id row.to_company = 0)

/-- What a run keeps. -/
structure Accounted (outbox : List CrossEntry) (handed : List Handover) : Prop where
  ids : (outbox.map CrossEntry.id).Nodup
  delivered : ∀ row ∈ outbox, row.status = .DELIVERED → received handed row.id row.to_company = 1
  others : ∀ row ∈ outbox, row.status ≠ .DELIVERED → received handed row.id row.to_company = 0
  recorded : ∀ h ∈ handed, h.accepted = true → (find_entry outbox h.id).isSome = true

theorem Accounted.truthful (hacc : Accounted outbox handed) : Truthful outbox handed := by
  intro row hmem
  refine ⟨⟨hacc.delivered row hmem, fun hone => ?_⟩, fun hrejected => ?_⟩
  · by_contra hne
    rw [hacc.others row hmem hne] at hone
    cases hone
  · exact hacc.others row hmem (by rw [hrejected]; decide)

/-! ## Adding a hand-over -/

/-- The hand-over that a queue took. -/
def counts (h : Handover) (id to_company : String) : Bool :=
  h.accepted && h.id = id && h.to_company = to_company

theorem received_append (handed : List Handover) (h : Handover) (id to_company : String) :
    received (handed ++ [h]) id to_company = received handed id to_company + (counts h id to_company).toNat := by
  unfold received counts
  rw [List.countP_append, List.countP_singleton]
  cases (h.accepted && decide (h.id = id) && decide (h.to_company = to_company)) <;> rfl

theorem counts_iff : counts h id to_company = true ↔
    h.accepted = true ∧ h.id = id ∧ h.to_company = to_company := by
  simp [counts, and_assoc]

/-- A hand-over that does not count. -/
theorem received_other (hno : counts h id to_company = false) :
    received (handed ++ [h]) id to_company = received handed id to_company := by
  rw [received_append, hno]
  rfl

/-- A hand-over that counts. -/
theorem received_more (hyes : counts h id to_company = true) :
    received (handed ++ [h]) id to_company = received handed id to_company + 1 := by
  rw [received_append, hyes]
  rfl

theorem counts_of_refused (hno : h.accepted = false) : counts h id to_company = false := by
  simp [counts, hno]

theorem counts_of_ne (hne : h.id ≠ id) : counts h id to_company = false := by
  simp [counts, hne]

/-- Nothing was taken under an id without a row. -/
theorem Accounted.received_new (hacc : Accounted outbox handed) (hnew : find_entry outbox id = none)
    (to_company : String) : received handed id to_company = 0 := by
  rw [received, List.countP_eq_zero]
  intro h hmem hcounts
  obtain ⟨haccepted, hid, -⟩ := counts_iff.mp hcounts
  have hrow := hacc.recorded h hmem haccepted
  rw [hid, hnew] at hrow
  cases hrow

/-- A hand-over that no queue took. -/
theorem Accounted.refused (hacc : Accounted outbox handed) (hno : h.accepted = false) :
    Accounted outbox (handed ++ [h]) where
  ids := hacc.ids
  delivered row hmem hstatus := (received_other (counts_of_refused hno)).trans (hacc.delivered row hmem hstatus)
  others row hmem hstatus := (received_other (counts_of_refused hno)).trans (hacc.others row hmem hstatus)
  recorded h' hmem haccepted := by
    rcases List.mem_append.mp hmem with hold | hlast
    · exact hacc.recorded h' hold haccepted
    · obtain rfl := List.mem_singleton.mp hlast
      rw [hno] at haccepted
      cases haccepted

/-! ## Adding a row -/

/-- What an `INSERT` leaves: it raises if the id is taken. -/
def add_entry (entry : CrossEntry) (outbox : List CrossEntry) : List CrossEntry :=
  if (find_entry outbox entry.id).isSome then outbox else outbox ++ [entry]

theorem add_entry_taken (htaken : (find_entry outbox entry.id).isSome = true) :
    add_entry entry outbox = outbox := if_pos htaken

theorem add_entry_new (hnew : find_entry outbox entry.id = none) :
    add_entry entry outbox = outbox ++ [entry] := by
  rw [add_entry, hnew]
  rfl

/-- A new row, with what was taken under its id. -/
theorem Accounted.add (hacc : Accounted outbox handed) (hnew : find_entry outbox entry.id = none)
    (hstatus : entry.status ≠ .DELIVERED) : Accounted (outbox ++ [entry]) handed := by
  have hnone := hacc.received_new hnew entry.to_company
  refine ⟨Table.keys_insert hacc.ids hnew, fun row hmem hdelivered => ?_, fun row hmem hother => ?_,
    fun h hmem haccepted => ?_⟩
  · rcases List.mem_append.mp hmem with hold | hlast
    · exact hacc.delivered row hold hdelivered
    · obtain rfl := List.mem_singleton.mp hlast
      exact absurd hdelivered hstatus
  · rcases List.mem_append.mp hmem with hold | hlast
    · exact hacc.others row hold hother
    · obtain rfl := List.mem_singleton.mp hlast
      exact hnone
  · obtain ⟨row, hrow⟩ := Option.isSome_iff_exists.mp (hacc.recorded h hmem haccepted)
    rw [find_entry, Table.find_insert_of_some hrow]
    rfl

/-- A row without a hand-over. -/
theorem Accounted.add_entry (hacc : Accounted outbox handed) (hstatus : entry.status ≠ .DELIVERED) :
    Accounted (InterCompany.add_entry entry outbox) handed := by
  cases hrow : find_entry outbox entry.id with
  | some row =>
      rw [add_entry_taken (by rw [hrow]; rfl)]
      exact hacc
  | none =>
      rw [add_entry_new hrow]
      exact hacc.add hrow hstatus

theorem ne_of_new (hnew : find_entry outbox id = none) {row : CrossEntry} (hmem : row ∈ outbox) :
    id ≠ row.id := fun heq => (Table.find_eq_none.mp hnew row hmem) heq.symm

/-- A new row for a message that the target took. -/
theorem Accounted.deliver (hacc : Accounted outbox handed) (hnew : find_entry outbox entry.id = none)
    (haccepted : h.accepted = true) (hid : entry.id = h.id) (hto : entry.to_company = h.to_company)
    (hstatus : entry.status = .DELIVERED) : Accounted (outbox ++ [entry]) (handed ++ [h]) := by
  have hnone := hacc.received_new hnew entry.to_company
  have hone : received (handed ++ [h]) entry.id entry.to_company = 1 := by
    rw [received_more (counts_iff.mpr ⟨haccepted, hid.symm, hto.symm⟩), hnone]
  have hold : ∀ row ∈ outbox, received (handed ++ [h]) row.id row.to_company =
      received handed row.id row.to_company := fun row hmem =>
    received_other (counts_of_ne (hid ▸ ne_of_new hnew hmem))
  refine ⟨Table.keys_insert hacc.ids hnew, fun row hmem hdelivered => ?_, fun row hmem hother => ?_,
    fun h' hmem haccepted' => ?_⟩
  · rcases List.mem_append.mp hmem with hmem | hlast
    · exact (hold row hmem).trans (hacc.delivered row hmem hdelivered)
    · obtain rfl := List.mem_singleton.mp hlast
      exact hone
  · rcases List.mem_append.mp hmem with hmem | hlast
    · exact (hold row hmem).trans (hacc.others row hmem hother)
    · obtain rfl := List.mem_singleton.mp hlast
      exact absurd hstatus hother
  · rcases List.mem_append.mp hmem with hmem | hlast
    · obtain ⟨row, hrow⟩ := Option.isSome_iff_exists.mp (hacc.recorded h' hmem haccepted')
      rw [find_entry, Table.find_insert_of_some hrow]
      rfl
    · obtain rfl := List.mem_singleton.mp hlast
      rw [← hid, find_entry, Table.find_insert, if_pos rfl]
      cases Table.find CrossEntry.id outbox entry.id <;> rfl

theorem Accounted.find_of_mem (hacc : Accounted outbox handed) (hmem : row ∈ outbox) :
    find_entry outbox row.id = some row := Table.find_of_mem hacc.ids hmem

/-- The row with an id is the only one. -/
theorem Accounted.eq_of_id (hacc : Accounted outbox handed) (hrow : find_entry outbox id = some row)
    {other : CrossEntry} (hmem : other ∈ outbox) (hid : other.id = id) : other = row := by
  have hfind := hacc.find_of_mem hmem
  rw [hid, hrow] at hfind
  exact (Option.some.inj hfind).symm

/-- A message that was taken under an id whose row is for another company. -/
theorem Accounted.foreign (hacc : Accounted outbox handed) (hrow : find_entry outbox h.id = some row)
    (hto : row.to_company ≠ h.to_company) : Accounted outbox (handed ++ [h]) := by
  have hsame : ∀ other ∈ outbox, received (handed ++ [h]) other.id other.to_company =
      received handed other.id other.to_company := by
    intro other hmem
    refine received_other ?_
    rw [← Bool.not_eq_true, counts_iff]
    rintro ⟨-, hid, heq⟩
    obtain rfl := hacc.eq_of_id hrow hmem hid.symm
    exact hto heq.symm
  refine ⟨hacc.ids, fun other hmem hstatus => ?_, fun other hmem hstatus => ?_, fun h' hmem haccepted => ?_⟩
  · exact (hsame other hmem).trans (hacc.delivered other hmem hstatus)
  · exact (hsame other hmem).trans (hacc.others other hmem hstatus)
  · rcases List.mem_append.mp hmem with hold | hlast
    · exact hacc.recorded h' hold haccepted
    · obtain rfl := List.mem_singleton.mp hlast
      rw [hrow]
      rfl

/-- **A message that is taken again**, or that a row of the same company waits with, makes the row untrue. -/
theorem Accounted.untrue_again (hacc : Accounted outbox handed) (haccepted : h.accepted = true)
    (hrow : find_entry outbox h.id = some row) (hto : row.to_company = h.to_company) :
    ¬ Truthful outbox (handed ++ [h]) := by
  intro htrue
  have hmem := Table.mem_of_find hrow
  have hid : row.id = h.id := Table.key_of_find hrow
  have hmore : received (handed ++ [h]) row.id row.to_company = received handed row.id row.to_company + 1 :=
    received_more (counts_iff.mpr ⟨haccepted, hid.symm, hto.symm⟩)
  obtain ⟨hiff, -⟩ := htrue row hmem
  rw [hmore] at hiff
  by_cases hstatus : row.status = .DELIVERED
  · have hone := hacc.delivered row hmem hstatus
    have htwo := hiff.mp hstatus
    omega
  · have hnone := hacc.others row hmem hstatus
    exact hstatus (hiff.mpr (by omega))

/-- **A message that is taken and recorded as rejected.** -/
theorem untrue_rejected (haccepted : h.accepted = true) (hid : entry.id = h.id)
    (hto : entry.to_company = h.to_company) (hstatus : entry.status = .REJECTED) :
    ¬ Truthful (outbox ++ [entry]) (handed ++ [h]) := by
  intro htrue
  have hzero := (htrue entry (by simp)).2 hstatus
  rw [received_more (counts_iff.mpr ⟨haccepted, hid.symm, hto.symm⟩)] at hzero
  omega

/-! ## A new status -/

section Update

variable {status : CrossStatus} {reason target_agent : Option String} {now : Time}

/-- The row with the id gets a new status. -/
def set_row (id : String) (status : CrossStatus) (reason target_agent : Option String) (now : Time)
    (outbox : List CrossEntry) : List CrossEntry :=
  Table.update CrossEntry.id id (updated status reason target_agent now) outbox

theorem find_set_row (x : String) : find_entry (set_row id status reason target_agent now outbox) x =
    if id = x then (find_entry outbox x).map (updated status reason target_agent now)
    else find_entry outbox x := by
  unfold find_entry set_row
  exact Table.find_update_key (f := updated status reason target_agent now) (fun _ => rfl) outbox id x

theorem set_row_ids : (set_row id status reason target_agent now outbox).map CrossEntry.id =
    outbox.map CrossEntry.id := by
  rw [set_row, Table.update, Table.keys_update]
  intro row
  split <;> rfl

theorem isSome_set_row (x : String) :
    (find_entry (set_row id status reason target_agent now outbox) x).isSome = (find_entry outbox x).isSome := by
  rw [find_set_row]
  split
  · exact Option.isSome_map
  · rfl

/-- Rows with a new status: the row with the id, and all others as they were. -/
theorem Accounted.mem_set_row (hacc : Accounted outbox handed) (hrow : find_entry outbox id = some row)
    {row' : CrossEntry} (hmem : row' ∈ set_row id status reason target_agent now outbox) :
    row' = updated status reason target_agent now row ∨ (row' ∈ outbox ∧ row'.id ≠ id) := by
  obtain ⟨old, hold, rfl⟩ := List.mem_map.mp hmem
  by_cases hid : old.id = id
  · rw [if_pos hid, hacc.eq_of_id hrow hold hid]
    exact .inl rfl
  · rw [if_neg hid]
    exact .inr ⟨hold, hid⟩

/-- A row that was not delivered gets another such status. -/
theorem Accounted.set_row (hacc : Accounted outbox handed) (hrow : find_entry outbox id = some row)
    (hold : row.status ≠ .DELIVERED) (hnew : status ≠ .DELIVERED) :
    Accounted (InterCompany.set_row id status reason target_agent now outbox) handed := by
  have hnone := hacc.others row (Table.mem_of_find hrow) hold
  refine ⟨by rw [set_row_ids]; exact hacc.ids, fun row' hmem hstatus => ?_, fun row' hmem hstatus => ?_,
    fun h hmem haccepted => (isSome_set_row h.id).trans (hacc.recorded h hmem haccepted)⟩
  · rcases hacc.mem_set_row hrow hmem with rfl | ⟨hmem, -⟩
    · exact absurd hstatus hnew
    · exact hacc.delivered row' hmem hstatus
  · rcases hacc.mem_set_row hrow hmem with rfl | ⟨hmem, -⟩
    · exact hnone
    · exact hacc.others row' hmem hstatus

/-- A row that was not delivered, and is when its target takes the message. -/
theorem Accounted.set_delivered (hacc : Accounted outbox handed) (hrow : find_entry outbox h.id = some row)
    (hold : row.status ≠ .DELIVERED) (hto : row.to_company = h.to_company) (haccepted : h.accepted = true) :
    Accounted (InterCompany.set_row h.id .DELIVERED reason target_agent now outbox) (handed ++ [h]) := by
  have hid : row.id = h.id := Table.key_of_find hrow
  have hone : received (handed ++ [h]) row.id row.to_company = 1 := by
    rw [received_more (counts_iff.mpr ⟨haccepted, hid.symm, hto.symm⟩),
      hacc.others row (Table.mem_of_find hrow) hold]
  have hsame : ∀ {other : CrossEntry}, other.id ≠ h.id →
      received (handed ++ [h]) other.id other.to_company = received handed other.id other.to_company :=
    fun hne => received_other (counts_of_ne hne.symm)
  refine ⟨by rw [set_row_ids]; exact hacc.ids, fun row' hmem hstatus => ?_, fun row' hmem hstatus => ?_,
    fun h' hmem haccepted' => ?_⟩
  · rcases hacc.mem_set_row hrow hmem with rfl | ⟨hmem, hne⟩
    · exact hone
    · exact (hsame hne).trans (hacc.delivered row' hmem hstatus)
  · rcases hacc.mem_set_row hrow hmem with rfl | ⟨hmem, hne⟩
    · exact absurd rfl hstatus
    · exact (hsame hne).trans (hacc.others row' hmem hstatus)
  · rw [isSome_set_row]
    rcases List.mem_append.mp hmem with hmem | hlast
    · exact hacc.recorded h' hmem haccepted'
    · obtain rfl := List.mem_singleton.mp hlast
      rw [hrow]
      rfl

end Update

end InterCompany

end CompanyFactory
