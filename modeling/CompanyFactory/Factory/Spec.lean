import CompanyFactory.AgentRuntime.Models
import CompanyFactory.Identity.Models
import CompanyFactory.Lib.DecimalText
import CompanyFactory.Lib.JsonText
import Mathlib.Algebra.GroupWithZero.Nat

/-!
# `Factory.Spec` — the recipe of a company, and its row

`create_company` writes the specification into the row of the company as JSON; a restart reads it back. Amounts are
written as the decimals of their text form, the rate of the clock as a float.

A value of the row that has another type than the writer gave it is refused here; the infinities and NaN, which
`Decimal` takes, are no decimals.

* `read_decimal_str` — the text of a decimal is that decimal.
* `spec_survives` — every valid specification is read back from its row.
-/

namespace CompanyFactory

open JsonText

/-- Finite floats, as the specification uses them. What `repr` writes, `float` reads. -/
structure Floats where
  F : Type
  repr : F → List Char
  /-- of a number in JSON -/
  float : List Char → Option F
  /-- `int(x)` -/
  truncated : F → Int
  /-- `0 < x` -/
  positive : F → Bool
  /-- `_DEFAULT_REAL_SECONDS_PER_COMPANY_DAY` -/
  realtime : F
  valid_repr : ∀ x, valid_number (repr x) = true
  float_repr : ∀ x, float (repr x) = some x

namespace Spec

variable (fl : Floats)

/-- `Decimal | float | int` -/
inductive Amount where
  | decimal (d : Decimal)
  | float (x : fl.F)
  | int (n : Int)

structure ClockRate where
  real_seconds_per_company_day : fl.F

structure ExtraAgentSpec where
  role_title : String
  first_name : String
  last_name : String
  role_description : String := ""
  persona_ref : String := "default"
  reports_to_role : Role := .CEO
  deriving DecidableEq

structure CompanySpec where
  name : String
  mission : String
  initial_budget_usd : Amount fl
  company_disk_quota_mb : Int := 1024
  default_agent_quota_mb : Int := 64
  industry : Option String := none
  extra_agents : List ExtraAgentSpec := []
  auto_approve_threshold_usd : Amount fl
  clock_rate : ClockRate fl
  company_id : Option String := none

/-! ## Validation -/

variable {fl}

/-- `str(x)` -/
def Amount.str : Amount fl → List Char
  | .decimal d => d.str
  | .float x => fl.repr x
  | .int n => Decimal.of_int n

/-- `Decimal(text)` -/
def read_decimal (text : List Char) : Except Exn Decimal :=
  match Decimal.parse ((strip text).filter (· ≠ '_')) with
  | some d => .ok d
  | none => .error (.other "InvalidOperation" "[<class 'decimal.ConversionSyntax'>]")

/-- `Decimal(str(x))` -/
def Amount.as_decimal (x : Amount fl) : Except Exn Decimal := read_decimal x.str

def is_blank_text (text : String) : Bool := decide (strip text.toList = [])

/-- `raise InvalidSpec(message)` unless the condition holds -/
def require (condition : Bool) (message : String) : Except Exn Unit :=
  if condition then .ok () else .error (.other "InvalidSpec" message)

/-- `ExtraAgentSpec.__post_init__` -/
def ExtraAgentSpec.post_init (ex : ExtraAgentSpec) : Except Exn Unit := do
  require (!is_blank_text ex.role_title) "role_title cannot be blank"
  require (!is_blank_text ex.first_name) "first_name cannot be blank"
  require (!is_blank_text ex.last_name) "last_name cannot be blank"

/-- `ClockRate.__post_init__` -/
def ClockRate.post_init (rate : ClockRate fl) : Except Exn Unit :=
  if fl.positive rate.real_seconds_per_company_day then .ok ()
  else .error (.valueError "real_seconds_per_company_day must be positive")

/-- `CompanySpec.__post_init__` -/
def CompanySpec.post_init (spec : CompanySpec fl) : Except Exn Unit := do
  require (!is_blank_text spec.name) "name must be non-empty"
  require (!is_blank_text spec.mission) "mission must be non-empty"
  let budget ← spec.initial_budget_usd.as_decimal
  require (!budget.negative && budget.coefficient ≠ 0) "initial_budget_usd must be positive"
  require (0 < spec.company_disk_quota_mb) "company_disk_quota_mb must be positive"
  require (0 < spec.default_agent_quota_mb) "default_agent_quota_mb must be positive"
  let threshold ← spec.auto_approve_threshold_usd.as_decimal
  require (!threshold.negative || threshold.coefficient = 0) "auto_approve_threshold_usd must be non-negative"

/-- A specification that was constructed, with its parts. -/
structure ValidSpec (fl : Floats) extends CompanySpec fl where
  valid : toCompanySpec.post_init = .ok ()
  extra_valid : ∀ ex ∈ extra_agents, ex.post_init = .ok ()
  rate_valid : clock_rate.post_init = .ok ()

/-! ## Writing -/

def optional_text : Option String → Value
  | none => .null
  | some s => .str s

def ExtraAgentSpec.to_json (ex : ExtraAgentSpec) : Value :=
  .obj [("role_title", .str ex.role_title), ("first_name", .str ex.first_name), ("last_name", .str ex.last_name),
    ("role_description", .str ex.role_description), ("persona_ref", .str ex.persona_ref),
    ("reports_to_role", .str ex.reports_to_role.value)]

/-- The members of the object that `to_json` makes, with its two decimals. -/
def CompanySpec.members (spec : CompanySpec fl) (budget threshold : Decimal) : List (String × Value) :=
  [("name", .str spec.name), ("mission", .str spec.mission), ("initial_budget_usd", .str (String.ofList budget.str)),
    ("company_disk_quota_mb", .number (Decimal.of_int spec.company_disk_quota_mb)),
    ("default_agent_quota_mb", .number (Decimal.of_int spec.default_agent_quota_mb)),
    ("industry", optional_text spec.industry), ("extra_agents", .arr (spec.extra_agents.map ExtraAgentSpec.to_json)),
    ("auto_approve_threshold_usd", .str (String.ofList threshold.str)),
    ("clock_rate_seconds_per_day", .number (fl.repr spec.clock_rate.real_seconds_per_company_day)),
    ("company_id", optional_text spec.company_id)]

/-- `CompanySpec.to_json` -/
def CompanySpec.to_json (spec : CompanySpec fl) : Except Exn Value := do
  let budget ← spec.initial_budget_usd.as_decimal
  let threshold ← spec.auto_approve_threshold_usd.as_decimal
  pure (.obj (spec.members budget threshold))

/-- The `spec_json` of the row that `_reserve_row` inserts. -/
def reserve_row (spec : CompanySpec fl) : Except Exn (List Char) := do
  let data ← spec.to_json
  pure (dumps data)

/-! ## Reading -/

def type_error : Exn := .other "TypeError" "unexpected type"

/-- `data.get(key)`; of several members with the name the last one counts. -/
def get (data : List (String × Value)) (key : String) : Option Value := data.reverse.lookup key

/-- `data[key]` -/
def getitem (data : List (String × Value)) (key : String) : Except Exn Value :=
  match get data key with
  | some v => .ok v
  | none => .error (.keyError key)

def as_text : Value → Except Exn String
  | .str s => .ok s
  | _ => .error type_error

def as_optional_text : Option Value → Except Exn (Option String)
  | none => .ok none
  | some .null => .ok none
  | some v => (as_text v).map some

def as_object : Value → Except Exn (List (String × Value))
  | .obj fields => .ok fields
  | _ => .error type_error

variable (fl)

/-- `str(v)`, as far as it may be the text of a decimal -/
def py_str : Value → List Char
  | .str s => s.toList
  | .number token =>
    match Decimal.integer token with
    | some n => Decimal.of_int n
    | none => ((fl.float token).map fl.repr).getD []
  | _ => []

/-- `int(v)` -/
def py_int : Value → Except Exn Int
  | .number token =>
    match Decimal.integer token with
    | some n => .ok n
    | none =>
      match fl.float token with
      | some x => .ok (fl.truncated x)
      | none => .error type_error
  | .str s =>
    match Decimal.integer (strip s.toList) with
    | some n => .ok n
    | none => .error (.valueError ("invalid literal for int() with base 10: '" ++ s ++ "'"))
  | .bool b => .ok (if b then 1 else 0)
  | _ => .error type_error

/-- `float(v)` -/
def py_float : Value → Except Exn fl.F
  | .number token =>
    match fl.float token with
    | some x => .ok x
    | none => .error type_error
  | _ => .error type_error

variable {fl}

/-- `Role(value)` -/
def role_of (value : String) : Except Exn Role :=
  match [Role.CEO, .HR, .SECURITY, .MEMBER].find? fun role => decide (role.value = value) with
  | some role => .ok role
  | none => .error (.valueError ("'" ++ value ++ "' is not a valid Role"))

/-- One passage of the comprehension over `extra_agents`. -/
def extra_from_json (v : Value) : Except Exn ExtraAgentSpec := do
  let ex ← as_object v
  let role_title ← as_text (← getitem ex "role_title")
  let first_name ← as_text ((get ex "first_name").getD (.str ""))
  let last_name ← as_text ((get ex "last_name").getD (.str ""))
  let role_description ← as_text ((get ex "role_description").getD (.str ""))
  let persona_ref ← as_text ((get ex "persona_ref").getD (.str "default"))
  let reports_to_role ← role_of (← as_text (← getitem ex "reports_to_role"))
  let extra : ExtraAgentSpec := { role_title, first_name, last_name, role_description, persona_ref, reports_to_role }
  extra.post_init
  pure extra

def extras_from_json : Option Value → Except Exn (List ExtraAgentSpec)
  | none => .ok []
  | some (.arr xs) => xs.mapM extra_from_json
  | some _ => .error type_error

variable (fl)

/-- The rate that is given, or the default. -/
def rate_from_json : Option Value → Except Exn (ClockRate fl)
  | none => .ok ⟨fl.realtime⟩
  | some .null => .ok ⟨fl.realtime⟩
  | some v => do
    let seconds ← py_float fl v
    let rate : ClockRate fl := ⟨seconds⟩
    rate.post_init
    pure rate

/-- `_spec_from_json` -/
def spec_from_json (v : Value) : Except Exn (CompanySpec fl) := do
  let data ← as_object v
  let extra_agents ← extras_from_json (get data "extra_agents")
  let clock_rate ← rate_from_json fl (get data "clock_rate_seconds_per_day")
  let name ← as_text (← getitem data "name")
  let mission ← as_text (← getitem data "mission")
  let budget ← read_decimal (py_str fl (← getitem data "initial_budget_usd"))
  let company_disk_quota_mb ← py_int fl (← getitem data "company_disk_quota_mb")
  let default_agent_quota_mb ← py_int fl (← getitem data "default_agent_quota_mb")
  let industry ← as_optional_text (get data "industry")
  let threshold ← read_decimal (py_str fl ((get data "auto_approve_threshold_usd").getD (.str "0")))
  let company_id ← as_optional_text (get data "company_id")
  let spec : CompanySpec fl := {
    name, mission, initial_budget_usd := .decimal budget, company_disk_quota_mb, default_agent_quota_mb, industry,
    extra_agents, auto_approve_threshold_usd := .decimal threshold, clock_rate, company_id }
  spec.post_init
  pure spec

/-- `_load_spec`, from the text of the row -/
def load_spec (spec_json : List Char) : Except Exn (CompanySpec fl) :=
  match loads spec_json with
  | some data => spec_from_json fl data
  | none => .error (.other "JSONDecodeError" "Expecting value")

/-! ## Numbers are read back -/

section Numbers

/-- No blank and no underscore is in the text of a decimal. -/
theorem text_plain {c : Char} (h : Decimal.IsText c) : is_space c = false ∧ c ≠ '_' := by
  rcases h with h | h
  · have hrange : 48 ≤ c.toNat ∧ c.toNat ≤ 57 := by
      rw [Char.isDigit, Bool.and_eq_true, decide_eq_true_eq, decide_eq_true_eq] at h
      exact h
    constructor
    · simp only [is_space, Bool.or_eq_false_iff, Bool.and_eq_false_iff, decide_eq_false_iff_not, beq_eq_false_iff_ne]
      omega
    · rintro rfl
      exact absurd hrange.2 (by decide)
  · simp only [List.mem_cons, List.not_mem_nil, or_false] at h
    rcases h with rfl | rfl | rfl | rfl <;> decide

theorem dropWhile_plain {cs : List Char} (h : ∀ c ∈ cs, is_space c = false) : cs.dropWhile is_space = cs := by
  cases cs with
  | nil => rfl
  | cons c cs => rw [List.dropWhile_cons_of_neg (by rw [h c List.mem_cons_self]; exact Bool.false_ne_true)]

theorem strip_plain {cs : List Char} (h : ∀ c ∈ cs, is_space c = false) : strip cs = cs := by
  have hreverse : ∀ c ∈ cs.reverse, is_space c = false := fun c hc => h c (List.mem_reverse.mp hc)
  rw [strip, dropWhile_plain h, dropWhile_plain hreverse, List.reverse_reverse]

/-- **The text of a decimal is that decimal.** -/
theorem read_decimal_str (d : Decimal) : read_decimal d.str = .ok d := by
  have hplain := fun c hc => text_plain (d.str_chars c hc)
  have hfilter : d.str.filter (· ≠ '_') = d.str :=
    List.filter_eq_self.mpr fun c hc => decide_eq_true (hplain c hc).2
  rw [read_decimal, strip_plain fun c hc => (hplain c hc).1, hfilter, d.parse_str]

/-- A number has no zero in front. -/
theorem head_toDigits (n : Nat) (h : 0 < n) : (Nat.toDigits 10 n).head? ≠ some '0' := by
  induction n using Nat.strongRecOn with
  | ind n ih =>
      rw [Nat.toDigits_eq_if (by decide)]
      split
      · intro hhead
        exact absurd (Nat.digitChar_eq_zero.mp (Option.some.inj hhead)) (by omega)
      · have hrest := ih (n / 10) (by omega) (by omega)
        cases hdigits : Nat.toDigits 10 (n / 10) with
        | nil => exact absurd hdigits Nat.toDigits_ne_nil
        | cons c cs =>
            rw [hdigits] at hrest
            exact hrest

theorem valid_whole_toDigits (n : Nat) : valid_whole (Nat.toDigits 10 n) = true := by
  rw [valid_whole]
  rcases Nat.eq_zero_or_pos n with rfl | hpos
  · simp [Nat.toDigits_zero]
  · simp [head_toDigits n hpos]

theorem valid_unsigned_toDigits (n : Nat) : valid_unsigned (Nat.toDigits 10 n) = true := by
  have hdigits : ∀ c ∈ Nat.toDigits 10 n, c.isDigit = true := fun c => Decimal.isDigit_toDigits
  rw [valid_unsigned, List.takeWhile_eq_self_iff.mpr hdigits, List.dropWhile_eq_nil_iff.mpr hdigits,
    valid_whole_toDigits]
  rfl

/-- **An integer is a number of JSON.** -/
theorem valid_of_int (n : Int) : valid_number (Decimal.of_int n) = true := by
  have hchars : (Nat.toDigits 10 n.natAbs).all is_number_char = true := by
    rw [List.all_eq_true]
    intro c hc
    rw [is_number_char, Decimal.isDigit_toDigits hc]
    rfl
  have hunsigned := valid_unsigned_toDigits n.natAbs
  unfold Decimal.of_int valid_number
  split
  · rw [List.all_cons, hchars, Bool.and_true]
    exact hunsigned
  · rw [hchars, Bool.true_and]
    split
    · rename_i heq
      -- the digits do not begin with a minus
      have hminus := Decimal.isDigit_toDigits (n := n.natAbs) (c := '-') (by rw [heq]; exact List.mem_cons_self)
      exact absurd hminus (by decide)
    · exact hunsigned

end Numbers

/-! ## The recipe is read back -/

section Recipe

variable {fl : Floats} {spec restored : CompanySpec fl}

/-- The same specification, with its amounts compared as the decimals of their text. -/
structure SameRecipe (spec restored : CompanySpec fl) : Prop where
  others : restored = { spec with
    initial_budget_usd := restored.initial_budget_usd, auto_approve_threshold_usd := restored.auto_approve_threshold_usd }
  initial_budget_usd : restored.initial_budget_usd.as_decimal = spec.initial_budget_usd.as_decimal
  auto_approve_threshold_usd :
    restored.auto_approve_threshold_usd.as_decimal = spec.auto_approve_threshold_usd.as_decimal

theorem role_of_value (role : Role) : role_of role.value = .ok role := by
  cases role <;> decide

theorem extra_from_to_json {ex : ExtraAgentSpec} (h : ex.post_init = .ok ()) : extra_from_json ex.to_json = .ok ex := by
  have hrole : as_text (.str ex.reports_to_role.value) = .ok ex.reports_to_role.value := rfl
  show (do
    let reports_to_role ← role_of ex.reports_to_role.value
    let extra : ExtraAgentSpec := { ex with reports_to_role }
    extra.post_init
    pure extra) = .ok ex
  rw [role_of_value]
  show (do
    ex.post_init
    pure ex) = .ok ex
  rw [h]
  rfl

theorem extras_from_to_json (extras : List ExtraAgentSpec) (h : ∀ ex ∈ extras, ex.post_init = .ok ()) :
    (extras.map ExtraAgentSpec.to_json).mapM extra_from_json = .ok extras := by
  induction extras with
  | nil => rfl
  | cons ex extras ih =>
      rw [List.map_cons, List.mapM_cons, extra_from_to_json (h ex List.mem_cons_self),
        ih fun e he => h e (List.mem_cons_of_mem _ he)]
      rfl

theorem well_formed_optional (text : Option String) : WellFormed (optional_text text) := by
  cases text with
  | none => exact .null
  | some s => exact .str s

/-- Every number that is written is one. -/
theorem well_formed_members (spec : CompanySpec fl) (budget threshold : Decimal) :
    WellFormed (.obj (spec.members budget threshold)) := by
  refine .obj ?_
  have hextras : WellFormed (.arr (spec.extra_agents.map ExtraAgentSpec.to_json)) := by
    refine .arr fun x hx => ?_
    obtain ⟨ex, -, rfl⟩ := List.mem_map.mp hx
    refine .obj ?_
    simp only [List.forall_mem_cons]
    exact ⟨.str _, .str _, .str _, .str _, .str _, .str _, fun f hf => nomatch hf⟩
  simp only [CompanySpec.members, List.forall_mem_cons]
  exact ⟨.str _, .str _, .str _, .number (valid_of_int _), .number (valid_of_int _), well_formed_optional _, hextras,
    .str _, .number (fl.valid_repr _), well_formed_optional _, fun f hf => nomatch hf⟩

theorem py_int_of_int (n : Int) : py_int fl (.number (Decimal.of_int n)) = .ok n := by
  simp only [py_int, Decimal.integer_of_int]

theorem as_optional_text_some (text : Option String) : as_optional_text (some (optional_text text)) = .ok text := by
  cases text with
  | none => rfl
  | some s => rfl

@[simp] theorem ok_bind {α β : Type} (a : α) (f : α → Except Exn β) : ((.ok a : Except Exn α) >>= f) = f a := rfl

/-- Every name is found among the members. -/
theorem get_members (spec : CompanySpec fl) (budget threshold : Decimal) :
    let data := spec.members budget threshold
    get data "name" = some (.str spec.name) ∧ get data "mission" = some (.str spec.mission) ∧
    get data "initial_budget_usd" = some (.str (String.ofList budget.str)) ∧
    get data "company_disk_quota_mb" = some (.number (Decimal.of_int spec.company_disk_quota_mb)) ∧
    get data "default_agent_quota_mb" = some (.number (Decimal.of_int spec.default_agent_quota_mb)) ∧
    get data "industry" = some (optional_text spec.industry) ∧
    get data "extra_agents" = some (.arr (spec.extra_agents.map ExtraAgentSpec.to_json)) ∧
    get data "auto_approve_threshold_usd" = some (.str (String.ofList threshold.str)) ∧
    get data "clock_rate_seconds_per_day" =
      some (.number (fl.repr spec.clock_rate.real_seconds_per_company_day)) ∧
    get data "company_id" = some (optional_text spec.company_id) := by
  simp [get, CompanySpec.members, List.lookup_cons]

theorem rate_from_repr {rate : ClockRate fl} (h : rate.post_init = .ok ()) :
    rate_from_json fl (some (.number (fl.repr rate.real_seconds_per_company_day))) = .ok rate := by
  have hfloat : py_float fl (.number (fl.repr rate.real_seconds_per_company_day)) =
      .ok rate.real_seconds_per_company_day := by
    rw [py_float, fl.float_repr]
  show (do
    let seconds ← py_float fl (.number (fl.repr rate.real_seconds_per_company_day))
    let rate : ClockRate fl := ⟨seconds⟩
    rate.post_init
    pure rate) = _
  rw [hfloat, ok_bind]
  show (do
    rate.post_init
    pure rate) = _
  rw [h, ok_bind]
  rfl

/-- What the members are read as. -/
theorem spec_from_members {budget threshold : Decimal} (hrate : spec.clock_rate.post_init = .ok ())
    (hextras : ∀ ex ∈ spec.extra_agents, ex.post_init = .ok ()) :
    spec_from_json fl (.obj (spec.members budget threshold)) = (do
      let restored : CompanySpec fl := { spec with
        initial_budget_usd := .decimal budget, auto_approve_threshold_usd := .decimal threshold }
      restored.post_init
      pure restored) := by
  have hamount : ∀ d : Decimal, read_decimal (py_str fl (.str (String.ofList d.str))) = .ok d := by
    intro d
    rw [py_str, String.toList_ofList, read_decimal_str]
  have hextra_agents : extras_from_json (some (.arr (spec.extra_agents.map ExtraAgentSpec.to_json))) =
      .ok spec.extra_agents := extras_from_to_json _ hextras
  obtain ⟨hname, hmission, hbudget, hdisk, hquota, hindustry, hagents, hthreshold, hclock, hid⟩ :=
    get_members spec budget threshold
  simp only [spec_from_json, as_object, getitem, hname, hmission, hbudget, hdisk, hquota, hindustry, hagents,
    hthreshold, hclock, hid, ok_bind, as_text, hextra_agents, rate_from_repr hrate, Option.getD_some, hamount,
    py_int_of_int, as_optional_text_some]

/-- The check looks at the amounts as decimals only. -/
theorem post_init_congr (h : SameRecipe spec restored) : restored.post_init = spec.post_init := by
  unfold CompanySpec.post_init
  rw [h.initial_budget_usd, h.auto_approve_threshold_usd, h.others]

/-- **A valid specification survives its row**: it is written, and what is read back is the same recipe. -/
theorem spec_survives (fl : Floats) (spec : ValidSpec fl) : ∃ spec_json restored,
    reserve_row spec.toCompanySpec = .ok spec_json ∧ load_spec fl spec_json = .ok restored ∧
      SameRecipe spec.toCompanySpec restored := by
  have hvalid := spec.valid
  unfold CompanySpec.post_init at hvalid
  -- the check has read both amounts
  obtain ⟨-, -, hvalid⟩ := Act.except_bind_eq_ok.mp hvalid
  obtain ⟨-, -, hvalid⟩ := Act.except_bind_eq_ok.mp hvalid
  obtain ⟨budget, hbudget, hvalid⟩ := Act.except_bind_eq_ok.mp hvalid
  obtain ⟨-, -, hvalid⟩ := Act.except_bind_eq_ok.mp hvalid
  obtain ⟨-, -, hvalid⟩ := Act.except_bind_eq_ok.mp hvalid
  obtain ⟨-, -, hvalid⟩ := Act.except_bind_eq_ok.mp hvalid
  obtain ⟨threshold, hthreshold, -⟩ := Act.except_bind_eq_ok.mp hvalid
  let restored : CompanySpec fl := { spec.toCompanySpec with
    initial_budget_usd := .decimal budget, auto_approve_threshold_usd := .decimal threshold }
  have hsame : SameRecipe spec.toCompanySpec restored := by
    refine ⟨rfl, ?_, ?_⟩
    · exact (read_decimal_str budget).trans hbudget.symm
    · exact (read_decimal_str threshold).trans hthreshold.symm
  refine ⟨dumps (.obj (spec.members budget threshold)), restored, ?_, ?_, hsame⟩
  · rw [reserve_row, CompanySpec.to_json, hbudget, hthreshold]
    rfl
  · rw [load_spec, loads_dumps (well_formed_members spec.toCompanySpec budget threshold)]
    dsimp only
    rw [spec_from_members spec.rate_valid spec.extra_valid]
    show (do
      restored.post_init
      pure restored) = _
    rw [post_init_congr hsame, spec.valid]
    rfl

end Recipe

/-! ### A run -/

/-- Whole numbers of seconds, which `repr` writes with one zero after the point. -/
def whole_seconds : Floats where
  F := Nat
  repr n := Nat.toDigits 10 n ++ ['.', '0']
  float cs := (Decimal.parse cs).map fun d => d.coefficient * 10 ^ d.exponent.toNat / 10 ^ (-d.exponent).toNat
  truncated n := n
  positive n := decide (0 < n)
  realtime := (3600 : Nat)
  valid_repr n := by
    have hdigits : ∀ c ∈ Nat.toDigits 10 n, c.isDigit = true := fun c => Decimal.isDigit_toDigits
    have hchars : (Nat.toDigits 10 n ++ ['.', '0']).all is_number_char = true := by
      rw [List.all_append, Bool.and_eq_true, List.all_eq_true]
      refine ⟨fun c hc => ?_, by decide⟩
      rw [is_number_char, hdigits c hc]
      rfl
    have hunsigned : valid_unsigned (Nat.toDigits 10 n ++ ['.', '0']) = true := by
      rw [valid_unsigned, List.takeWhile_append_of_pos hdigits, List.dropWhile_append_of_pos hdigits]
      simp [valid_whole_toDigits, valid_fraction, valid_exponent]
    unfold valid_number
    rw [hchars, Bool.true_and]
    split
    · rename_i rest heq
      cases hcs : Nat.toDigits 10 n with
      | nil => exact absurd hcs Nat.toDigits_ne_nil
      | cons c cs =>
          rw [hcs] at heq
          cases heq
          exact absurd (hdigits '-' (by rw [hcs]; exact List.mem_cons_self)) (by decide)
    · exact hunsigned
  float_repr n := by
    have hdigits : ∀ c ∈ Nat.toDigits 10 n, c.isDigit = true := fun c => Decimal.isDigit_toDigits
    have hparse : Decimal.parse (Nat.toDigits 10 n ++ ['.', '0']) = some ⟨false, 10 * n, -1⟩ := by
      have hrest : Decimal.Stops ['.', '0'] := Decimal.stops_cons.mpr rfl
      have hfraction : Decimal.fraction ['.', '0'] = (['0'], []) := by decide
      have hzero : Nat.ofDigitChars 10 (Nat.toDigits 10 n ++ ['0']) 0 = 10 * n := by
        rw [Nat.ofDigitChars_append, Nat.ofDigitChars_ten_toDigits]
        rfl
      rw [Decimal.parse, Decimal.sign_digits hdigits Nat.toDigits_ne_nil]
      simp only [Decimal.digits_append hdigits hrest, hfraction, hzero]
      rw [if_neg (List.append_ne_nil_of_right_ne_nil _ (List.cons_ne_nil _ _))]
      rfl
    rw [hparse]
    simp

/-- A shop with one member besides the core. -/
def small_shop : CompanySpec whole_seconds :=
  { name := "Café", mission := "sell", initial_budget_usd := .int 100
    extra_agents := [{ role_title := "Cook", first_name := "Ada", last_name := "Bell" }]
    auto_approve_threshold_usd := .decimal ⟨false, 50, -2⟩, clock_rate := ⟨(3600 : Nat)⟩ }

example : (reserve_row small_shop).map (fun text => String.ofList (text.take 37)) =
    .ok "\x7b\"name\":\"Caf\\u00e9\",\"mission\":\"sell\"," := by decide +kernel

example : (reserve_row small_shop).map (fun text => String.ofList (text.drop 284)) =
    .ok "\"auto_approve_threshold_usd\":\"0.50\",\"clock_rate_seconds_per_day\":3600.0,\"company_id\":null\x7d" := by
  decide +kernel

end Spec

end CompanyFactory
