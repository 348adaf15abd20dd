import Zc.Config.Named

namespace zc.config

/-- What a connection shows of a rule. -/
structure RuleView where
  index : Nat
  kind : String
  payload : String
  target : String
  deriving DecidableEq

/-- What a connection shows of a proxy; none of its credentials. -/
structure ProxyView where
  name : String
  kind : String
  deriving DecidableEq

def ProxyKind.label : ProxyKind → String
  | .Direct => "Direct"
  | .Reject => "Reject"
  | .Shadowsocks .. => "Shadowsocks"
  | .Trojan .. => "Trojan"
  | .AnyTls .. => "AnyTLS"

namespace Config

def rule_view (cfg : Config) (index : Nat) : Result RuleView := do
  let rule ← okOr cfg.rules[index]? (.panic "index out of bounds")
  let target ← cfg.node_name rule.proxy
  pure { index, kind := rule.kind, payload := rule.payload, target }

def proxy_view (cfg : Config) (index : Nat) : Result ProxyView := do
  let proxy ← okOr cfg.proxies[index]? (.panic "index out of bounds")
  pure { name := proxy.name, kind := proxy.kind.label }

end Config

end zc.config
