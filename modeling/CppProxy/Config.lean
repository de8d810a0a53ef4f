/-
  cpp_proxy — the configuration (config.hpp).

  `parse_conf` reads the file as JSON, builds the new table of proxy entities,
  notes which entities are gone and which are new, and replaces the table.  An
  exception on the way leaves the table as it was.

  * `Json`: a JSON value, with the accesses of nlohmann::json that may throw;
  * `Config.parseConf`: the function; `error` is the state left by an exception;
  * `table`: the entities of a file that is accepted;
  * `parseConf_ok`, `parseConf_error`: what either outcome leaves;
  * `Config.getProxyServer`: the lookup of a session.
-/
import Mathlib.Data.Nat.Basic
import Mathlib.Data.Rat.Defs
import CppProxy.Lib.KeyedSet

namespace CppProxy

/-! ## JSON values -/

/-- A JSON value; `number` is an integer that fits 64 bits and `float` any other
    number, and the members of an object are in the order of their keys. -/
inductive Json
  | null
  | bool (b : Bool)
  | number (n : ℤ)
  | float (x : ℚ)
  | string (s : String)
  | array (items : List Json)
  | object (members : List (String × Json))

namespace Json

/-- `contains`. -/
def contains (key : String) : Json → Bool
  | object members => (members.lookup key).isSome
  | _ => false

/-- The value of a key in the document; `null` if it is not there. -/
def member (key : String) : Json → Json
  | object members => (members.lookup key).getD null
  | _ => null

/-- `operator[]`: it inserts `null` for a key that is missing, makes an object of
    `null`, and throws on everything else. -/
def at' (key : String) : Json → Option Json
  | object members => some ((members.lookup key).getD null)
  | null => some null
  | _ => none

/-- The values of a range-based `for`: a primitive value is its own range. -/
def items : Json → List Json
  | null => []
  | array items => items
  | object members => members.map Prod.snd
  | j => [j]

/-- The conversion to `std::string`. -/
def toString : Json → Option String
  | string s => some s
  | _ => none

/-- The conversion to `bool`. -/
def toBool : Json → Option Bool
  | bool b => some b
  | _ => none

/-- The conversion of a `double` to an integer cuts the fraction off. -/
def truncate (x : ℚ) : ℤ := x.num.tdiv x.den

/-- The conversion to `size_t`, which is the type of an unsigned number.  A `float`
    whose integer part does not fit is undefined; here, and below, it wraps as an
    integer does. -/
def toSizeT : Json → Option UInt64
  | number n => some (UInt64.ofInt n)
  | float x => some (UInt64.ofInt (truncate x))
  | _ => none

/-- The conversion to any other arithmetic type accepts a boolean as well. -/
def toArithmetic : Json → Option ℤ
  | number n => some n
  | float x => some (truncate x)
  | bool b => some (if b then 1 else 0)
  | _ => none

/-- `get<uint16_t>()`: the conversion wraps around. -/
def toUInt16 (j : Json) : Option UInt16 :=
  j.toArithmetic.map UInt16.ofInt

/-- `get<uint32_t>()`: the conversion wraps around. -/
def toUInt32 (j : Json) : Option UInt32 :=
  j.toArithmetic.map UInt32.ofInt

/-- The value of a key, converted. -/
def get {α : Type} (j : Json) (key : String) (convert : Json → Option α) : Option α :=
  (j.at' key).bind convert

/-- The value of a key that need not be there. -/
def getOr {α : Type} (j : Json) (key : String) (convert : Json → Option α) (default : α) :
    Option α :=
  if j.contains key then j.get key convert else some default

end Json

/-! ## The table -/

/-- `struct server_info`, with its defaults. -/
structure ServerInfo where
  ip : String
  port : UInt16
  connBufSize : UInt64 := 8124
  responseBypass : Bool := true
deriving DecidableEq, Repr

/-- `struct proxy_entity`. -/
structure ProxyEntity where
  listenPort : UInt16 := 0
  listenIp : String := ""
  servers : List ServerInfo := []
deriving DecidableEq, Repr

/-- `operator<` compares the ports. -/
def ProxyEntity.key (e : ProxyEntity) : ℕ := e.listenPort.toNat

/-- `std::set<proxy_entity>`. -/
abbrev Entities : Type := KeyedSet ProxyEntity ProxyEntity.key

/-- The ports of a table. -/
def Entities.HasPort (entities : Entities) (port : UInt16) : Prop := port.toNat ∈ entities.keys

instance (entities : Entities) (port : UInt16) : Decidable (entities.HasPort port) :=
  inferInstanceAs (Decidable (_ ∈ _))

theorem Entities.hasPort_iff {entities : Entities} {p : UInt16} :
    entities.HasPort p ↔ ∃ e ∈ entities.elems, e.listenPort = p := by
  simp only [HasPort, KeyedSet.keys, List.mem_map, ProxyEntity.key, UInt16.toNat_inj]

theorem distinct_of_sorted {l : List ProxyEntity} (h : l.Pairwise fun a b => a.key < b.key) :
    l.Pairwise fun a b => a.listenPort ≠ b.listenPort :=
  h.imp fun hlt he => by simp [ProxyEntity.key, he] at hlt

/-- `struct log_info`, with its defaults. -/
structure LogInfo where
  logDir : String := "/var/log/cpp_proxy/"
  logName : String := "cpp_proxy"
  logMaxSize : UInt32 := 10 * 1024 * 1024
  logMaxFiles : UInt32 := 10
deriving DecidableEq, Repr

/-- The members of `config`; `conf_path_` does not change. -/
structure Config where
  logInfo : LogInfo := {}
  workThreads : UInt32 := 0
  entities : Entities := KeyedSet.empty
  del : Entities := KeyedSet.empty
  add : Entities := KeyedSet.empty
deriving DecidableEq

/-- One element of `servers`. -/
def parseServer (server : Json) : Option ServerInfo := do
  let ip ← server.get "ip" Json.toString
  let port ← server.get "port" Json.toUInt16
  let connBufSize ← server.getOr "conn_buf_size" Json.toSizeT 8124
  let responseBypass ← server.getOr "response_bypass" Json.toBool true
  return { ip, port, connBufSize, responseBypass }

/-- One element of `tcp_proxy`. -/
def parseProxy (proxy : Json) : Option ProxyEntity := do
  let servers ← (← proxy.at' "servers").items.mapM parseServer
  let listenIp ← proxy.getOr "listen_ip" Json.toString ""
  let listenPort ← proxy.get "listen_port" Json.toUInt16
  return { listenPort, listenIp, servers }

/-- The loop over `tcp_proxy`: the first entity of a port stays. -/
def parseEntities (j : Json) : Option Entities := do
  let proxies ← (← j.at' "tcp_proxy").items.mapM parseProxy
  return proxies.foldl KeyedSet.emplace KeyedSet.empty

namespace Config

/-- `if (j.contains(key)) field = j[key];` -/
def setField {α : Type} (c : Config) (j : Json) (key : String) (convert : Json → Option α)
    (set : Config → α → Config) : Except Config Config :=
  if j.contains key then
    match j.get key convert with
    | some v => .ok (set c v)
    | none => .error c
  else .ok c

/-- `parse_conf` on a file with this content; `none` is no JSON. -/
def parseConf (c : Config) : Option Json → Except Config Config
  | none => .error c
  | some j => do
    let c ← c.setField j "log_dir" Json.toString fun c v =>
      { c with logInfo := { c.logInfo with logDir := v } }
    let c ← c.setField j "log_name" Json.toString fun c v =>
      { c with logInfo := { c.logInfo with logName := v } }
    let c ← c.setField j "log_max_files" Json.toUInt32 fun c v =>
      { c with logInfo := { c.logInfo with logMaxFiles := v } }
    let c ← c.setField j "log_max_size" Json.toUInt32 fun c v =>
      { c with logInfo := { c.logInfo with logMaxSize := v } }
    let c ← c.setField j "worker_threads" Json.toUInt32 fun c v => { c with workThreads := v }
    match parseEntities j with
    | none => .error c
    | some entities => .ok { c with
        del := c.entities.difference entities
        add := entities.difference c.entities
        entities }

/-- What a session gets for its port: `servers[0]` is undefined when there are no
    servers. -/
inductive Lookup
  | null
  | undefined
  | found (server : ServerInfo)
deriving DecidableEq, Repr

/-- `get_proxy_server`: the first server of the entry of a port. -/
def getProxyServer (c : Config) (listenPort : UInt16) : Lookup :=
  match c.entities.find listenPort.toNat with
  | none => .null
  | some e => match e.servers with
    | [] => .undefined
    | server :: _ => .found server

end Config

/-- The table of a file that is accepted. -/
def table (content : Option Json) : Option Entities :=
  match Config.parseConf {} content with
  | .ok c => some c.entities
  | .error _ => none

/-- A file that gives these servers to each of the ports. -/
def fileOf (servers : List Json) (ports : List ℤ) : Option Json :=
  some (.object [("tcp_proxy", .array (ports.map fun port =>
    .object [("listen_port", .number port), ("servers", .array servers)]))])

/-- The server 10.0.0.1:80. -/
def oneServer : List Json := [.object [("ip", .string "10.0.0.1"), ("port", .number 80)]]

theorem Json.at'_eq_some {j v : Json} {key : String} (h : j.at' key = some v) :
    v = j.member key := by
  cases j <;> simp_all [at', member]

-- the ports are in order, and each is there once
example : (table (fileOf oneServer [81, 80, 81])).map KeyedSet.keys = some [80, 81] := by
  decide +kernel

/-! ## The outcome of `parse_conf` -/

/-- The tables of a configuration. -/
def Config.tables (c : Config) : Entities × Entities × Entities := (c.entities, c.del, c.add)

/-- A file is accepted or not, whatever the configuration: an accepted file
    replaces the tables, and the other leaves them. -/
def Config.Outcome (f : Config → Except Config Config) : Prop :=
  (∃ entities, ∀ c, ∃ c', f c = .ok c' ∧
    c'.tables = (entities, c.entities.difference entities, entities.difference c.entities)) ∨
  ∀ c, ∃ c', f c = .error c' ∧ c'.tables = c.tables

/-- A field is set, or its value throws. -/
theorem Config.Outcome.setField {α : Type} {f : Config → Except Config Config} (h : Outcome f)
    (j : Json) (key : String) (convert : Json → Option α) {set : Config → α → Config}
    (hset : ∀ c v, (set c v).tables = c.tables) :
    Outcome fun c => c.setField j key convert set >>= f := by
  have hthrow : (∀ c : Config, c.setField j key convert set = .error c) →
      Outcome fun c => c.setField j key convert set >>= f :=
    fun he => .inr fun c => ⟨c, by simp only [he c]; rfl, rfl⟩
  have hgo : (∀ c : Config, ∃ c', c.setField j key convert set = .ok c' ∧
      c'.tables = c.tables) → Outcome fun c => c.setField j key convert set >>= f := by
    intro hs
    rcases h with ⟨entities, hf⟩ | hf
    · refine .inl ⟨entities, fun c => ?_⟩
      obtain ⟨c₁, h₁, ht₁⟩ := hs c
      obtain ⟨c₂, h₂, ht₂⟩ := hf c₁
      have he : c₁.entities = c.entities := congrArg Prod.fst ht₁
      exact ⟨c₂, by simp only [h₁]; exact h₂, by rw [ht₂, he]⟩
    · refine .inr fun c => ?_
      obtain ⟨c₁, h₁, ht₁⟩ := hs c
      obtain ⟨c₂, h₂, ht₂⟩ := hf c₁
      exact ⟨c₂, by simp only [h₁]; exact h₂, ht₂.trans ht₁⟩
  by_cases hk : j.contains key
  · cases hg : j.get key convert with
    | none => exact hthrow fun c => by simp [Config.setField, hk, hg]
    | some v => exact hgo fun c => ⟨set c v, by simp [Config.setField, hk, hg], hset c v⟩
  · exact hgo fun c => ⟨c, by simp [Config.setField, hk], rfl⟩

theorem outcome_parseConf (content : Option Json) :
    Config.Outcome fun c => c.parseConf content := by
  cases content with
  | none => exact .inr fun c => ⟨c, rfl, rfl⟩
  | some j =>
    refine .setField (.setField (.setField (.setField (.setField ?_ j "worker_threads" _ ?_)
      j "log_max_size" _ ?_) j "log_max_files" _ ?_) j "log_name" _ ?_) j "log_dir" _ ?_
    case refine_1 =>
      cases parseEntities j with
      | none => exact .inr fun c => ⟨c, rfl, rfl⟩
      | some entities => exact .inl ⟨entities, fun c => ⟨_, rfl, rfl⟩⟩
    all_goals exact fun _ _ => rfl

/-- **An accepted file** replaces the table and notes the differences. -/
theorem parseConf_ok {c c' : Config} {content : Option Json}
    (h : c.parseConf content = .ok c') : table content = some c'.entities ∧
      c'.del = c.entities.difference c'.entities ∧ c'.add = c'.entities.difference c.entities := by
  rcases outcome_parseConf content with ⟨entities, ho⟩ | ho
  · obtain ⟨c₁, (h₁ : c.parseConf content = _), ht₁⟩ := ho c
    rw [h] at h₁; cases h₁
    obtain ⟨c₂, (h₂ : Config.parseConf {} content = _), ht₂⟩ := ho {}
    simp only [Config.tables, Prod.mk.injEq] at ht₁ ht₂
    obtain ⟨rfl, hd, ha⟩ := ht₁
    exact ⟨by simp only [table, h₂, ht₂.1], hd, ha⟩
  · obtain ⟨c₁, (h₁ : c.parseConf content = _), -⟩ := ho c
    rw [h] at h₁; cases h₁

/-- A step behind a field is reached with some configuration. -/
theorem setField_bind_ok {α : Type} {c c' : Config} {j : Json} {key : String}
    {convert : Json → Option α} {set : Config → α → Config} {f : Config → Except Config Config}
    (h : c.setField j key convert set >>= f = .ok c') : ∃ c₁, f c₁ = .ok c' := by
  cases hs : c.setField j key convert set with
  | ok c₁ => exact ⟨c₁, by rw [hs] at h; exact h⟩
  | error c₁ => rw [hs] at h; cases h

/-- The table of an accepted file is that of its entries. -/
theorem parseConf_entities {c c' : Config} {j : Json} (h : c.parseConf (some j) = .ok c') :
    parseEntities j = some c'.entities := by
  obtain ⟨_, h⟩ := setField_bind_ok h
  obtain ⟨_, h⟩ := setField_bind_ok h
  obtain ⟨_, h⟩ := setField_bind_ok h
  obtain ⟨_, h⟩ := setField_bind_ok h
  obtain ⟨_, h⟩ := setField_bind_ok h
  cases hj : parseEntities j with
  | none => rw [hj] at h; cases h
  | some entities => rw [hj] at h; cases h; rfl

/-- **An exception** leaves the tables. -/
theorem parseConf_error {c c' : Config} {content : Option Json}
    (h : c.parseConf content = .error c') : table content = none ∧ c'.tables = c.tables := by
  rcases outcome_parseConf content with ⟨entities, ho⟩ | ho
  · obtain ⟨c₁, (h₁ : c.parseConf content = _), -⟩ := ho c
    rw [h] at h₁; cases h₁
  · obtain ⟨c₁, (h₁ : c.parseConf content = _), ht₁⟩ := ho c
    rw [h] at h₁; cases h₁
    obtain ⟨c₂, (h₂ : Config.parseConf {} content = _), -⟩ := ho {}
    exact ⟨by simp only [table, h₂], ht₁⟩

/-- The lookup misses when no entity has the port, or when it has no server. -/
theorem getProxyServer_found {c : Config} {port : UInt16} (h : c.entities.HasPort port)
    (hs : ∀ e ∈ c.entities.elems, e.servers ≠ []) :
    ∃ e ∈ c.entities.elems, ∃ server ∈ e.servers, e.listenPort = port ∧
      c.getProxyServer port = .found server := by
  obtain ⟨e, he⟩ := Option.isSome_iff_exists.1 (KeyedSet.find_isSome.2 h)
  obtain ⟨hmem, hkey⟩ := KeyedSet.mem_of_find he
  cases hsv : e.servers with
  | nil => exact absurd hsv (hs e hmem)
  | cons server servers =>
    exact ⟨e, hmem, server, by simp [hsv], UInt16.toNat_inj.1 hkey,
      by simp [Config.getProxyServer, he, hsv]⟩

end CppProxy
