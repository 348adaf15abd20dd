import Zc.Config.Proxy
import Zc.Config.Rule

namespace zc.config

/-- A group with its members as node indices: proxies first, groups after them. -/
structure Group where
  name : String
  members : List Nat
  deriving DecidableEq

/-- `HashMap::insert` where an old entry is an error. -/
def insert_name (names : Names) (name : String) (index : Nat) : Result Names :=
  if (names.lookup name).isSome then bail "duplicate or reserved proxy/group name"
  else pure ((name, index) :: names)

/-- Name the groups, the first of them with index `next`. -/
def name_groups (names : Names) (next : Nat) : List RawGroup → Result Names
  | [] => pure names
  | group :: groups => do
    validate_name group.name
    bail_if (group.kind ≠ "select" || group.proxies.isEmpty)
      "proxy-group must be select with at least one member"
    let names ← insert_name names group.name next
    name_groups names (next + 1) groups

def member_index (names : Names) (member : String) : Result Nat :=
  okOr (names.lookup member) (.message "proxy-group references an unknown proxy or group")

def group_edges (names : Names) (groups : List RawGroup) : Result (List (List Nat)) :=
  groups.mapM fun group => group.proxies.mapM (member_index names)

/-- The state of a node in the depth-first search: `0`, `1` and `2` in the source. -/
inductive Mark where
  | Unvisited
  | Active
  | Done
  deriving DecidableEq

/-- The search: the state of every node, and the frames with their next member, innermost first. -/
structure Search where
  state : List Mark
  stack : List (Nat × Nat)

/-- One turn of the `while let` loop, for the innermost frame. -/
def Search.visit (edges : List (List Nat)) (proxy_count : Nat) (state : List Mark) (node next : Nat)
    (below : List (Nat × Nat)) : Result Search :=
  match edges[node - proxy_count]? with
  | none => .error (.panic "index out of bounds")
  | some members =>
    if next = members.length then pure ⟨state.set node .Done, below⟩
    else
      match members[next]? with
      | none => .error (.panic "index out of bounds")
      | some child =>
        match state[child]? with
        | none => .error (.panic "index out of bounds")
        | some .Unvisited => pure ⟨state.set child .Active, (child, 0) :: (node, next + 1) :: below⟩
        | some .Active => bail "proxy-group cycle detected, including unselected branches"
        | some .Done => pure ⟨state, (node, next + 1) :: below⟩

/-- The `while let` loop. A search takes at most `search_fuel` turns. -/
def Search.run (edges : List (List Nat)) (proxy_count : Nat) : Nat → Search → Result (List Mark)
  | 0, _ => .error (.panic "out of fuel")
  | fuel + 1, search =>
    match search.stack with
    | [] => pure search.state
    | (node, next) :: below => do
      let search ← Search.visit edges proxy_count search.state node next below
      Search.run edges proxy_count fuel search

def search_fuel (edges : List (List Nat)) : Nat :=
  (edges.map fun members => members.length + 2).sum + 1

/-- The `for` loop over the groups as roots. -/
def search_roots (edges : List (List Nat)) (proxy_count : Nat) : List Nat → List Mark → Result (List Mark)
  | [], state => pure state
  | root :: roots, state => do
    if state[root]? = some .Done then
      search_roots edges proxy_count roots state
    else
      let state ← Search.run edges proxy_count (search_fuel edges) ⟨state.set root .Active, [(root, 0)]⟩
      search_roots edges proxy_count roots state

/-- The groups, and the names with the groups added. -/
def resolve_groups (groups : List RawGroup) (names : Names) (proxy_count : Nat) :
    Result (List Group × Names) := do
  let names ← name_groups names proxy_count groups
  let edges ← group_edges names groups
  let state := List.replicate proxy_count Mark.Done ++ List.replicate groups.length Mark.Unvisited
  let _ ← search_roots edges proxy_count (List.range' proxy_count groups.length) state
  pure (List.zipWith (fun group members => { name := group.name, members }) groups edges, names)

end zc.config
