import Zc.Config.Parse

namespace zc.config

namespace Config

def node_name (cfg : Config) (index : Nat) : Result String :=
  if index < cfg.proxies.length then
    okOr (cfg.proxies[index]?.map (·.name)) (.panic "index out of bounds")
  else
    okOr (cfg.groups[index - cfg.proxies.length]?.map (·.name)) (.panic "index out of bounds")

/-- The `for` loop of `resolve_proxy`, with the number of turns it has left. -/
def resolve_from (cfg : Config) : (turns : Nat) → (index : Nat) → Result Nat
  | 0, _ => .error (.panic "validated group graph is acyclic")
  | turns + 1, index =>
    if index < cfg.proxies.length then pure index
    else
      let group := index - cfg.proxies.length
      match cfg.groups[group]?, cfg.selections[group]? with
      | some group, some selected =>
        match group.members[selected]? with
        | some member => resolve_from cfg turns member
        | none => .error (.panic "index out of bounds")
      | _, _ => .error (.panic "index out of bounds")

def resolve_proxy (cfg : Config) (index : Nat) : Result Nat :=
  cfg.resolve_from (cfg.groups.length + 1) index

/-- `Iterator::position` over the members by the name of their node. -/
def member_position (cfg : Config) (proxy : String) : List Nat → Result (Option Nat)
  | [] => pure none
  | node :: nodes => do
    if (← cfg.node_name node) = proxy then pure (some 0)
    else
      let found ← member_position cfg proxy nodes
      pure (found.map (· + 1))

def selection (cfg : Config) (group proxy : String) : Result (Nat × Nat) := do
  let index ← okOr (cfg.groups.findIdx? fun candidate => candidate.name = group)
    (.message "unknown selectable proxy-group")
  let members ← okOr (cfg.groups[index]?.map (·.members)) (.panic "index out of bounds")
  let found ← cfg.member_position proxy members
  let member ← okOr found (.message "selection must be a direct member of the proxy-group")
  pure (index, member)

/-- Validation completes before the new selections are stored. -/
def set_selections (cfg : Config) (selections : List (String × String)) : Result Config := do
  bail_if (selections.length > MAX_GROUPS) "persisted selection count limit exceeded"
  let next ← selections.foldlM (fun next entry => do
    let (index, member) ← cfg.selection entry.1 entry.2
    pure (next.set index member)) (List.replicate cfg.groups.length 0)
  pure { cfg with selections := next }

def select (cfg : Config) (group proxy : String) : Result Config := do
  let (index, member) ← cfg.selection group proxy
  pure { cfg with selections := cfg.selections.set index member }

end Config

/-- A call that changes the selections. -/
inductive SelectionCall where
  | select (group proxy : String)
  | set_selections (selections : List (String × String))

def SelectionCall.result (cfg : Config) : SelectionCall → Result Config
  | .select group proxy => cfg.select group proxy
  | .set_selections selections => cfg.set_selections selections

/-- A failing call leaves the configuration as it was. -/
def SelectionCall.apply (cfg : Config) (call : SelectionCall) : Config :=
  match call.result cfg with
  | .ok next => next
  | .error _ => cfg

def Config.after (cfg : Config) (calls : List SelectionCall) : Config :=
  calls.foldl SelectionCall.apply cfg

end zc.config
