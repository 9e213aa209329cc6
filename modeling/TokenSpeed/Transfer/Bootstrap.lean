import TokenSpeed.Logic.Fault

/-!
# The bootstrap server's table

`Table` of `ts-pd/src/bootstrap.rs`: what the source ranks register by `PUT /route`, and what `GET /route` answers. A
body is the value it parses to, if it is JSON. A refusal keeps its text; its status is 500 but where `route` says.
-/

namespace TokenSpeed.Transfer.Bootstrap

open Function

/-- What the table asks of JSON values and of the layouts' codec. -/
structure Wire (Value Contract : Type) where
  null : Value
  get : Value → String → Option Value
  asI64 : Value → Option Int
  asStr : Value → Option String
  asArray : Value → Option (List Value)
  /-- `text.trim().parse::<i64>()` -/
  parse : String → Option Int
  fromWire : String → Option Contract
  /-- what `validate_stage_fields` refuses -/
  stageError : Contract → List (List String) → Option String

inductive Registry where
  | addresses
  | cacheLayouts
  deriving DecidableEq

structure RankAddress (Value : Type) where
  ip : Value
  port : Int
  deriving DecidableEq

/-- `Table`; a rank is found under its DP group and its TP rank in it. -/
structure Table (Value Contract : Type) where
  worldSize : Option Value := none
  dpSize : Option Value := none
  tpSizePerDpRank : Option Int := none
  ppSize : Option Int := none
  ranks : Int × Int → Option (RankAddress Value) := fun _ => none
  cacheLayout : Option (String × Contract) := none
  cacheFieldsByStage : Option (List (List String)) := none

/-- The fields every registration has. -/
structure Registration (Value : Type) where
  role : Value
  worldSize : Value
  dpSize : Value
  ip : Value
  port : Int
  engineRank : Int

def orRefuse {α : Type} (value : Option α) (message : String) : Result α :=
  value.elim (.error (.assertion message)) pure

/-- `i64::div_euclid`, which panics where the quotient is no `i64`. -/
def divEuclid (a b : Int) : Result Int :=
  if a = -9223372036854775808 ∧ b = -1 then .error (.fatal "attempt to divide with overflow") else pure (a / b)

variable {Value Contract : Type} (w : Wire Value Contract)

namespace Wire

def integer (value : Option Value) (name : String) : Result Int := do
  let value ← orRefuse value s!"missing {name}"
  orRefuse (w.asI64 value <|> (w.asStr value).bind w.parse) s!"{name} is not an integer"

def readRegistration (data : Value) : Result (Registration Value) := do
  let field (key : String) := orRefuse (w.get data key) s!"missing {key}"
  let role ← field "role"
  let worldSize ← field "world_size"
  let dpSize ← field "dp_size"
  let ip ← field "rank_ip"
  let port ← w.integer (w.get data "rank_port") "rank_port"
  let engineRank ← w.integer (w.get data "engine_rank") "engine_rank"
  pure { role, worldSize, dpSize, ip, port, engineRank }

/-- The layout and the placement of `ingest_cache_layout`, before they are compared with the table's. -/
def readLayout (data : Value) : Result ((String × Contract) × List (List String)) := do
  let wire ← orRefuse (((w.get data "cache_layout").bind w.asStr).filter fun wire => wire.toList.all (·.toNat < 128))
    "CachePD bootstrap layout must be a string"
  let layout ← orRefuse (w.fromWire wire) "CachePD bootstrap layout is invalid"
  let stages ← orRefuse ((w.get data "cache_fields_by_stage").bind w.asArray)
    "CachePD requires explicit stage field placement"
  let stages ← stages.mapM fun stage => do
    let fields ← orRefuse (w.asArray stage) "CachePD requires explicit stage field placement"
    fields.mapM fun field =>
      orRefuse (w.asStr field) "cache stage placement must cover every logical field exactly once"
  match w.stageError layout stages with
  | some error => .error (.assertion error)
  | none =>
    let ppSize ← w.integer (w.get data "pp_size") "pp_size"
    assert (stages.length == ppSize) "CachePD placement does not match pipeline stage count"
    pure ((wire, layout), stages)

/-- The `pp_size` a registration may carry. -/
def readPpSize (data : Value) : Result (Option Int) :=
  match w.get data "pp_size" with
  | none => pure none
  | some value => some <$> w.integer (some value) "pp_size"

def tpSize (worldSize dpSize : Value) : Result Int := do
  let world ← w.integer (some worldSize) "world_size"
  let dp ← w.integer (some dpSize) "dp_size"
  assert (dp != 0) "dp_size must not be zero"
  divEuclid world dp

/-- Where a Prefill rank is found. -/
def rankKey (r : Registration Value) (tp : Int) : Result (Option (Int × Int)) :=
  if w.asStr r.role = some "Prefill" then do
    assert (tp != 0) "world_size must not be below dp_size"
    let dpGroup ← divEuclid r.engineRank tp
    pure (some (dpGroup, r.engineRank % tp))
  else pure none

end Wire

namespace Table

variable (t : Table Value Contract)

def insertRank (r : Registration Value) : Option (Int × Int) → Table Value Contract
  | none => t
  | some key => { t with ranks := update t.ranks key (some ⟨r.ip, r.port⟩) }

/-- `register` once the layout is recorded: the sizes are recorded before they are read. -/
def recordSizes (data : Value) (r : Registration Value) : Table Value Contract × Result Unit :=
  let t := { t with worldSize := t.worldSize <|> some r.worldSize, dpSize := t.dpSize <|> some r.dpSize }
  match w.readPpSize data with
  | .error e => (t, .error e)
  | .ok ppSize =>
    let t := { t with ppSize := ppSize <|> t.ppSize }
    match w.tpSize r.worldSize r.dpSize with
    | .error e => (t, .error e)
    | .ok tp =>
      let t := { t with tpSizePerDpRank := t.tpSizePerDpRank <|> some tp }
      match w.rankKey r tp with
      | .error e => (t, .error e)
      | .ok key => (t.insertRank r key, .ok ())

variable [DecidableEq Contract] (registry : Registry)

def ingestCacheLayout (data : Value) : Result (Table Value Contract) := do
  let (layout, stages) ← w.readLayout data
  assert (t.cacheFieldsByStage.all (· == stages)) "CachePD prefill ranks registered incompatible field placement"
  assert (t.cacheLayout.all (·.2 == layout.2)) "CachePD prefill ranks registered incompatible layouts"
  pure { t with cacheLayout := t.cacheLayout <|> some layout, cacheFieldsByStage := some stages }

/-- The table once the registry's own part of a body is recorded. -/
def ingest (data : Value) : Result (Table Value Contract) :=
  match registry with
  | .addresses => pure t
  | .cacheLayouts => t.ingestCacheLayout w data

/-- `PUT /route`: the table afterwards, and whether the registration is refused. -/
def register : Option Value → Table Value Contract × Result Unit
  | none => (t, .error (.assertion "the registration is not JSON"))
  | some data =>
    match w.readRegistration data with
    | .error e => (t, .error e)
    | .ok r =>
      match t.ingest w registry data with
      | .error e => (t, .error e)
      | .ok t => t.recordSizes w data r

def registerAll (bodies : List (Option Value)) : Table Value Contract :=
  bodies.foldl (fun t body => (t.register w registry body).1) t

/-- The body names its rank, and its layout agrees with the table's. -/
def Readable (body : Option Value) : Prop :=
  ∃ data r t', body = some data ∧ w.readRegistration data = .ok r ∧ t.ingest w registry data = .ok t'

end Table

/-- The bodies of a group as they arrive, with others between that are refused unread. -/
inductive Arrives [DecidableEq Contract] (w : Wire Value Contract) (registry : Registry) :
    Table Value Contract → List (Option Value) → List Value → Prop where
  | nil {s} : Arrives w registry s [] []
  | member {s data bodies group} : Arrives w registry (Table.register w s registry (some data)).1 bodies group →
      Arrives w registry s (some data :: bodies) (data :: group)
  | refused {s body bodies group} : ¬ Table.Readable w s registry body → Arrives w registry s bodies group →
      Arrives w registry s (body :: bodies) group

/-- What `GET /route` answers. -/
inductive Answer (Value : Type) where
  | node (tpSize dpSize : Value) (ppSize : Int) (layout : Option (Option String × Option (List (List String))))
  | rank (address : RankAddress Value)
  deriving DecidableEq

def Table.route (t : Table Value Contract) (registry : Registry) (query : String → Option String) :
    Except (Nat × String) (Answer Value) :=
  match (query "engine_rank").filter (· ≠ ""), (query "target_dp_group").filter (· ≠ "") with
  | some engineRank, some dpGroup =>
    match w.parse engineRank, w.parse dpGroup with
    | none, _ => .error (500, "engine_rank is not an integer")
    | _, none => .error (500, "target_dp_group is not an integer")
    | some engineRank, some dpGroup =>
      if engineRank = -1 ∧ dpGroup = -1 then
        .ok (.node (t.worldSize.getD w.null) (t.dpSize.getD w.null) (t.ppSize.getD 1)
          (if registry = .cacheLayouts then some (t.cacheLayout.map Prod.fst, t.cacheFieldsByStage) else none))
      else (t.ranks (dpGroup, engineRank)).elim (.error (500, "Bootstrap info not Found")) fun address =>
        .ok (.rank address)
  | _, _ => .error (400, "Missing inputs for bootstrap server.")

end TokenSpeed.Transfer.Bootstrap
