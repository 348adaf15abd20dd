import Zc.Config.Value
import Zc.Error
import Zc.Net.Ip

namespace zc

/-- `ipnet::IpNet`. -/
structure IpNet where
  addr : net.IpAddr
  prefix_len : Nat
  deriving DecidableEq

/-- What the crate reads off a `reqwest::Url`. -/
structure Url where
  scheme : String
  host_str : Option String

/-- The third-party crates that configuration parsing and routing call. -/
structure Crates where
  /-- `serde_json::from_str::<Document>`. -/
  json_document : String → Option Value
  /-- `serde_saphyr::from_multiple_with_options::<Document>` under the options of
      `yaml_value_inner`, with its errors mapped as there. -/
  yaml_documents : String → Result (List Value)
  /-- `str::parse::<IpNet>`. -/
  parse_net : String → Option IpNet
  /-- `IpNet::contains`. -/
  contains : IpNet → net.IpAddr → Bool
  /-- `reqwest::Url::parse`. -/
  parse_url : String → Option Url
  /-- Whether `rustls::pki_types::ServerName::try_from` accepts the name. -/
  server_name : String → Bool

end zc
