import Zc.Config.FirstMatch
import Zc.Config.FlatMap
import Zc.Connection.Response
import Zc.Lib.History

/-!
# Connections over whole runs

The calls that `serve`, `associate`, `udp_relay` and `dial` make on the guard of their connection,
in the order they make them, interleaved with those of all other connections and with requests to
close. Whatever can fail in between only ends the connection, which drops the guard.
-/

namespace zc.connection

open config (Config Route Query SocketAddr)

/-! ## One connection -/

/-- Where the task of a connection stands between two calls on its guard. -/
inductive Task where
  /-- `serve` has made no call yet. -/
  | handshake
  /-- `associate` waits for the first datagram. -/
  | waiting
  /-- A target is known and its route is looked up. -/
  | dialing (inbound : Inbound) (target : zc.Target)
  | routed (inbound : Inbound) (route : Route)
  | rejected
  | active (inbound : Inbound)
  /-- Between two requests of one HTTP connection. -/
  | idle

/-- The routes a lookup can give; the selections may change at any time. -/
def Routed (cfg : Config) (udp : Bool) (target : zc.Target) (route : Route) : Prop :=
  ∃ selections crates query, query.target = target ∧
    (Config.route_inner { cfg with selections } crates query (!udp)).1 = .ok route

/-- `dial` refuses rejecting proxies, `udp_relay` all but those that relay datagrams. -/
def refuses (inbound : Inbound) (route : Route) : Bool :=
  if inbound = .Socks5Udp then
    !route.proxy.udp || !match route.proxy.kind with
      | .Shadowsocks .. | .Trojan .. => true
      | _ => false
  else route.proxy.kind == .Reject

/-- The calls of one task on its guard. -/
inductive Task.Calls (cfg : Config) : Task → Change → Task → Prop
  | socks_connect {target : zc.Target} (hmade : Made target) :
    Calls cfg .handshake (.target target none .Socks5Connect) (.dialing .Socks5Connect target)
  | associate : Calls cfg .handshake (.inbound .Socks5Udp) .waiting
  | http {target : zc.Target} {kind : Inbound} (hmade : Made target) (hkind : kind = .HttpForward ∨ kind = .HttpConnect) :
    Calls cfg .handshake (.target target none kind) (.dialing kind target)
  | http_again {target : zc.Target} {kind : Inbound} (hmade : Made target) (hkind : kind = .HttpForward ∨ kind = .HttpConnect) :
    Calls cfg .idle (.target target none kind) (.dialing kind target)
  | datagram {target : zc.Target} {sender : SocketAddr} (hmade : Made target) :
    Calls cfg .waiting (.target target (some sender) .Socks5Udp) (.dialing .Socks5Udp target)
  | routed {kind : Inbound} {target : zc.Target} {route : Route} (hroute : Routed cfg (kind == .Socks5Udp) target route) :
    Calls cfg (.dialing kind target) (.routed route) (.routed kind route)
  | rejected {kind : Inbound} {route : Route} (hrefuses : refuses kind route = true) :
    Calls cfg (.routed kind route) (.phase .Rejected) .rejected
  | active {kind : Inbound} {route : Route} (hrefuses : refuses kind route = false) :
    Calls cfg (.routed kind route) (.phase .Active) (.active kind)
  | idle : Calls cfg (.active .HttpForward) .idle .idle

/-! ## All connections -/

/-- The registry, and the tasks that hold a guard. -/
structure System where
  state : State
  tasks : SortedMap Nat Task

def System.start : System :=
  ⟨.default, .empty⟩

inductive Event where
  | accept (source : SocketAddr)
  | call (sequence : Nat) (change : Change)
  | finish (sequence : Nat)
  | close (id : String)

inductive Step (nonce : String) (cfg : Config) : System → Event → System → Prop
  | accepted {sys : System} {source : SocketAddr} {sequence : Nat} {state : State}
    (hregister : register nonce source sys.state = some (sequence, state)) :
    Step nonce cfg sys (.accept source) ⟨state, sys.tasks.insert sequence .handshake⟩
  | refused {sys : System} {source : SocketAddr} (hregister : register nonce source sys.state = none) :
    Step nonce cfg sys (.accept source) sys
  | called {sys : System} {sequence : Nat} {task next : Task} {change : Change} (htask : sys.tasks.get sequence = some task)
    (hcalls : task.Calls cfg change next) :
    Step nonce cfg sys (.call sequence change) ⟨update sequence change sys.state, sys.tasks.insert sequence next⟩
  | finished {sys : System} {sequence : Nat} {task : Task} (htask : sys.tasks.get sequence = some task) :
    Step nonce cfg sys (.finish sequence) ⟨drop sequence sys.state, sys.tasks.erase sequence⟩
  | closed {sys : System} {id : String} :
    Step nonce cfg sys (.close id) { sys with state := (close nonce id sys.state).2 }

abbrev Interleaving (nonce : String) (cfg : Config) : List Event → System → Prop :=
  History .start fun _ => Step nonce cfg

/-! ## The routes -/

variable {cfg : Config}

theorem Routed.below {udp : Bool} {target : zc.Target} {route : Route} (hroute : Routed cfg udp target route) :
    route.rule_index < cfg.rules.length ∧ route.leaf_index < cfg.proxies.length := by
  obtain ⟨selections, crates, query, -, hok⟩ := hroute
  have hending := config.ending_of_route_inner { cfg with selections } crates query (!udp)
  generalize Config.route_inner { cfg with selections } crates query (!udp) = result at *
  cases hending with
  | exhausted => cases hok
  | failed => cases hok
  | @matched front back rule pinned hrules =>
    simp only [Config.finish, bind_eq_ok_iff, okOr_eq_ok_iff] at hok
    obtain ⟨leaf, -, proxy, hproxy, _, -, hpure⟩ := hok
    rw [← Except.ok.inj hpure]
    refine ⟨?_, (List.getElem?_eq_some_iff.1 hproxy).1⟩
    have hlength : cfg.rules.length = (front ++ rule :: back).length := congrArg List.length hrules
    rw [hlength, List.length_append, List.length_cons]
    exact Nat.lt_add_of_pos_right (Nat.succ_pos _)

theorem Routed.made {udp : Bool} {target : zc.Target} {route : Route} (hroute : Routed cfg udp target route)
    (hmade : Made target) : Made route.target := by
  obtain ⟨selections, crates, query, rfl, hok⟩ := hroute
  have hending := config.ending_of_route_inner { cfg with selections } crates query (!udp)
  generalize Config.route_inner { cfg with selections } crates query (!udp) = result at *
  cases hending with
  | exhausted => cases hok
  | failed => cases hok
  | matched =>
    simp only [Config.finish, bind_eq_ok_iff, okOr_eq_ok_iff] at hok
    obtain ⟨leaf, -, proxy, -, dialled, hdial, hpure⟩ := hok
    rw [← Except.ok.inj hpure]
    unfold config.dial_target at hdial
    split at hdial
    · exact ⟨_, _, .inl hdial⟩
    · exact Except.ok.inj hdial ▸ hmade

/-! ## The invariant of an entry -/

/-- The entry of a task that is not closing shows where the task stands. -/
def Task.Follows (entry : Entry) : Task → Prop
  | .handshake => entry.metadata.phase = .Handshake
  | .waiting => entry.metadata.phase = .UdpWait
  | .dialing kind target =>
    entry.metadata.phase = .Routing ∧ entry.metadata.inbound = some kind ∧ entry.metadata.target = some target
  | .routed kind _ => entry.metadata.phase = .Connecting ∧ entry.metadata.inbound = some kind
  | .rejected => entry.metadata.phase = .Rejected
  | .active kind => entry.metadata.phase = .Active ∧ entry.metadata.inbound = some kind
  | .idle => entry.metadata.phase = .Idle

structure Entry.Sound (cfg : Config) (task : Task) (entry : Entry) : Prop where
  shape : Shape cfg entry
  fits : Fits entry
  follows : entry.metadata.phase = .Closing ∨ task.Follows entry

variable {task : Task} {entry : Entry}

theorem Entry.Sound.close (hsound : entry.Sound cfg task) : entry.close.Sound cfg task :=
  ⟨{ hsound.shape with }, trivial, .inl rfl⟩

/-- What `Guard::target` makes of an entry. -/
theorem Entry.Sound.target {target : zc.Target} {sender : Option SocketAddr} {kind : Inbound} (hmade : Made target)
    (hudp : entry.metadata.protocol = .Udp ↔ kind = .Socks5Udp) (hsender : sender.isSome = true ↔ kind = .Socks5Udp) :
    (Change.apply entry (.target target sender kind)).Sound cfg (.dialing kind target) where
  shape := {
    target := by
      rintro _ ⟨⟩
      exact hmade
    routed_target := nofun
    route := rfl
    below := nofun
    routed := nofun
    udp := by
      rw [Change.apply, Option.some_inj]
      exact hudp
    datagram := by
      rw [Change.apply, hsender, ← hudp]
      exact (and_iff_left rfl).symm
    scope := rfl }
  fits := ⟨rfl, rfl⟩
  follows := .inr ⟨rfl, rfl, rfl⟩

theorem ne_of_http {kind : Inbound} (hkind : kind = .HttpForward ∨ kind = .HttpConnect) : kind ≠ .Socks5Udp := by
  rcases hkind with rfl | rfl <;> decide

/-- A call of the task on an entry that is not closing. -/
theorem Entry.Sound.call {next : Task} {change : Change} (hsound : entry.Sound cfg task)
    (hopen : entry.metadata.phase ≠ .Closing) (hcalls : task.Calls cfg change next) :
    (change.apply entry).Sound cfg next := by
  have hfollows := hsound.follows.resolve_left hopen
  have hfits := hsound.fits
  have hshape := hsound.shape
  unfold Fits at hfits
  cases hcalls with
  | socks_connect hmade =>
    rw [hfollows] at hfits
    exact .target hmade (by simp [hfits.1]) (by simp)
  | associate =>
    rw [hfollows] at hfits
    refine ⟨?_, ⟨rfl, hfits.2.1, hfits.2.2⟩, .inr rfl⟩
    have hroute : entry.metadata.routed_target = none := by
      rw [← Option.not_isSome_iff_eq_none, ← hshape.route, hfits.2.2]
      exact Bool.false_ne_true
    have hsource : entry.metadata.datagram_source = none := by
      rw [← Option.not_isSome_iff_eq_none, hshape.datagram, hfits.1]
      exact fun h => nomatch h.1
    refine { hshape with udp := ⟨fun _ => rfl, fun _ => rfl⟩, datagram := ?_ }
    simp only [Change.apply, if_true, hsource, hfits.2.1]
    simp
  | http hmade hkind =>
    rw [hfollows] at hfits
    have hne := ne_of_http hkind
    exact .target hmade (by simp [hfits.1, hne]) (by simp [hne])
  | http_again hmade hkind =>
    rw [hfollows] at hfits
    have htcp : entry.metadata.protocol ≠ .Udp := by
      rw [Ne, hshape.udp, hfits.1]
      decide
    have hne := ne_of_http hkind
    exact .target hmade (by simp [htcp, hne]) (by simp [hne])
  | datagram hmade =>
    rw [hfollows] at hfits
    exact .target hmade (by simp [hfits.1]) (by simp)
  | routed hroute =>
    obtain ⟨hphase, hinbound, htarget⟩ := hfollows
    have hmade := hroute.made (hshape.target _ htarget)
    refine ⟨?_, ?_, .inr ⟨rfl, hinbound⟩⟩
    · refine { hshape with routed_target := ?_, route := rfl, below := ?_, routed := fun _ => ?_ }
      · rintro _ ⟨⟩
        exact hmade
      · rintro _ _ ⟨⟩
        exact hroute.below
      · rw [Change.apply, htarget]
        rfl
    · refine ⟨?_, rfl, ?_⟩
      · rw [Change.apply, htarget]
        rfl
      · rw [Change.apply, hinbound]
        rfl
  | rejected =>
    rw [hfollows.1] at hfits
    exact ⟨{ hshape with }, hfits, .inr rfl⟩
  | active =>
    rw [hfollows.1] at hfits
    exact ⟨{ hshape with }, hfits, .inr ⟨rfl, hfollows.2⟩⟩
  | idle =>
    have htcp : entry.metadata.protocol ≠ .Udp := by
      rw [Ne, hshape.udp, hfollows.2]
      decide
    have hsource : ¬ entry.metadata.datagram_source.isSome = true := by
      rw [hshape.datagram]
      exact fun h => htcp h.1
    refine ⟨?_, ⟨hfollows.2, rfl, rfl⟩, .inr rfl⟩
    refine { hshape with target := nofun, routed_target := nofun, route := rfl, below := nofun, routed := nofun, datagram := ?_ }
    exact ⟨fun h => absurd h hsource, fun h => nomatch h.2⟩

/-! ## The invariant of the system -/

structure System.Sound (nonce : String) (cfg : Config) (sys : System) : Prop where
  limit : sys.state.entries.entries.length ≤ LIMIT
  sequence : sys.state.sequence < 2 ^ 64
  entries : ∀ sequence entry, (sequence, entry) ∈ sys.state.entries.entries →
    0 < sequence ∧ sequence ≤ sys.state.sequence ∧ entry.metadata.id = connection_id nonce sequence ∧
      ∃ task, sys.tasks.get sequence = some task ∧ entry.Sound cfg task

variable {sys : System}

theorem System.Sound.close {nonce : String} (hsound : sys.Sound nonce cfg) (id : String) :
    System.Sound nonce cfg { sys with state := (connection.close nonce id sys.state).2 } := by
  unfold connection.close
  split
  · exact hsound
  split_ifs
  · exact hsound
  split
  · exact hsound
  next sequence entry hget =>
  have hmem := SortedMap.mem_entries_of_get hget
  refine ⟨(SortedMap.length_insertEntry_of_mem sys.state.entries.sorted hmem rfl).trans_le hsound.limit, hsound.sequence, ?_⟩
  intro other found hfound
  rcases SortedMap.mem_entries_insert.1 hfound with heq | ⟨hfound, -⟩
  · obtain ⟨rfl, rfl⟩ := Prod.mk.inj heq
    obtain ⟨hpos, hle, hid, task, htask, hentry⟩ := hsound.entries _ _ hmem
    exact ⟨hpos, hle, hid, task, htask, hentry.close⟩
  · exact hsound.entries other found hfound

/-- No change touches the id. -/
theorem id_apply (entry : Entry) (change : Change) : (change.apply entry).metadata.id = entry.metadata.id := by
  cases change with
  | inbound kind =>
    rw [Change.apply]
    split_ifs <;> rfl
  | _ => rfl

theorem System.Sound.call {nonce : String} (hsound : sys.Sound nonce cfg) {sequence : Nat} {next : Task}
    {change : Change} (htask : sys.tasks.get sequence = some task) (hcalls : task.Calls cfg change next) :
    System.Sound nonce cfg ⟨update sequence change sys.state, sys.tasks.insert sequence next⟩ := by
  have hother : ∀ other found, (other, found) ∈ sys.state.entries.entries → other ≠ sequence →
      0 < other ∧ other ≤ sys.state.sequence ∧ found.metadata.id = connection_id nonce other ∧
        ∃ task, (sys.tasks.insert sequence next).get other = some task ∧ found.Sound cfg task := by
    intro other found hfound hne
    obtain ⟨hpos, hle, hid, task', htask', hentry⟩ := hsound.entries other found hfound
    exact ⟨hpos, hle, hid, task', SortedMap.get_insert_of_ne hne htask', hentry⟩
  unfold update
  split
  · next hnone =>
    refine ⟨hsound.limit, hsound.sequence, fun other found hfound => hother other found hfound ?_⟩
    rintro rfl
    rw [SortedMap.get_of_mem_entries hfound] at hnone
    cases hnone
  next entry hget =>
  have hmem := SortedMap.mem_entries_of_get hget
  obtain ⟨hpos, hle, hid, task', htask', hentry⟩ := hsound.entries sequence entry hmem
  obtain rfl := Option.some.inj (htask'.symm.trans htask)
  have hself := SortedMap.get_insert_self sys.tasks sequence next
  split_ifs with hopen
  · refine ⟨(SortedMap.length_insertEntry_of_mem sys.state.entries.sorted hmem rfl).trans_le hsound.limit, hsound.sequence, ?_⟩
    intro other found hfound
    rcases SortedMap.mem_entries_insert.1 hfound with heq | ⟨hfound, hne⟩
    · obtain ⟨rfl, rfl⟩ := Prod.mk.inj heq
      exact ⟨hpos, hle, (id_apply entry change).trans hid, next, hself, hentry.call hopen hcalls⟩
    · exact hother other found hfound hne
  · refine ⟨hsound.limit, hsound.sequence, fun other found hfound => ?_⟩
    by_cases heq : other = sequence
    · subst heq
      obtain rfl := (Prod.mk.inj (SortedMap.eq_of_mem_entries hfound hmem rfl)).2
      exact ⟨hpos, hle, hid, next, hself, hentry.shape, hentry.fits, .inl (of_not_not hopen)⟩
    · exact hother other found hfound heq

theorem System.Sound.finish {nonce : String} {cfg : Config} {sys : System} (hsound : sys.Sound nonce cfg) (sequence : Nat) :
    System.Sound nonce cfg ⟨drop sequence sys.state, sys.tasks.erase sequence⟩ := by
  refine ⟨(List.length_filter_le _ _).trans hsound.limit, hsound.sequence, fun other found hfound => ?_⟩
  obtain ⟨hfound, hne⟩ := SortedMap.mem_entries_erase.1 hfound
  obtain ⟨hpos, hle, hid, task, htask, hentry⟩ := hsound.entries other found hfound
  exact ⟨hpos, hle, hid, task, SortedMap.get_eq_some_iff.2 (SortedMap.mem_entries_erase.2 ⟨SortedMap.get_eq_some_iff.1 htask, hne⟩),
    hentry⟩

theorem System.Sound.accept {nonce : String} (hsound : sys.Sound nonce cfg) {source : SocketAddr} {sequence : Nat}
    {state : State} (hregister : register nonce source sys.state = some (sequence, state)) :
    System.Sound nonce cfg ⟨state, sys.tasks.insert sequence .handshake⟩ := by
  unfold register at hregister
  split_ifs at hregister with hlimit hsequence
  obtain ⟨rfl, rfl⟩ := Prod.mk.inj (Option.some.inj hregister)
  refine ⟨?_, Nat.lt_of_not_le hsequence, fun other found hfound => ?_⟩
  · exact (SortedMap.length_insertEntry_le _ _ _).trans (Nat.lt_of_not_le hlimit)
  · rcases SortedMap.mem_entries_insert.1 hfound with heq | ⟨hfound, hne⟩
    · obtain ⟨rfl, rfl⟩ := Prod.mk.inj heq
      refine ⟨Nat.succ_pos _, Nat.le_refl _, rfl, .handshake, SortedMap.get_insert_self _ _ _, ?_, ⟨rfl, rfl, rfl⟩, .inr rfl⟩
      exact ⟨nofun, nofun, rfl, nofun, nofun, by simp, by simp, rfl⟩
    · obtain ⟨hpos, hle, hid, task, htask, hentry⟩ := hsound.entries other found hfound
      exact ⟨hpos, Nat.le_succ_of_le hle, hid, task, SortedMap.get_insert_of_ne hne htask, hentry⟩

theorem System.Sound.step {nonce : String} {cfg : Config} {sys next : System} {event : Event} (hsound : sys.Sound nonce cfg)
    (hstep : Step nonce cfg sys event next) : next.Sound nonce cfg := by
  cases hstep with
  | accepted hregister => exact hsound.accept hregister
  | refused => exact hsound
  | called htask hcalls => exact hsound.call htask hcalls
  | finished => exact hsound.finish _
  | closed => exact hsound.close _

theorem System.sound_start (nonce : String) (cfg : Config) : System.start.Sound nonce cfg where
  limit := Nat.zero_le _
  sequence := Nat.two_pow_pos 64
  entries := by
    intro sequence entry hmem
    cases hmem

theorem sound_of_interleaving {nonce : String} {events : List Event} (hrun : Interleaving nonce cfg events sys) :
    sys.Sound nonce cfg := by
  refine hrun.invariant (P := fun _ sys => sys.Sound nonce cfg) (System.sound_start nonce cfg) ?_
  intro _ _ _ _ hsound hstep
  exact hsound.step hstep

/-! ## Listings -/

theorem listing_valid {nonce : String} {crates : Crates} {source : String} {assets : config.Assets} {cfg : Config}
    {events : List Event} {sys : System} (hlen : str.len nonce = 32) (hhex : nonce.toList.all isHexDigit = true)
    (hparse : Config.parse_with_assets crates source assets = .ok cfg) (hrun : Interleaving nonce cfg events sys) :
    ∃ value, write_list cfg sys.state = .ok value ∧ valid_response value nonce none = true := by
  have hcfg := Config.wellFormed_of_parse hparse
  have hrules := config.length_rules_le_of_parse hparse
  have hsound := sound_of_interleaving hrun
  obtain ⟨views, hviews⟩ : ∃ views, sys.state.entries.entries.mapM (fun entry => entry.2.view cfg) = .ok views := by
    refine Traverse.exists_mapM fun entry hentry => ?_
    obtain ⟨-, -, -, task, -, hentry⟩ := hsound.entries entry.1 entry.2 hentry
    obtain ⟨view, hview, -⟩ := exists_view hcfg hentry.shape.below
    exact ⟨view, hview⟩
  have hall := Traverse.mapM_eq_ok_iff.1 hviews
  have hids : List.Forall₂ (fun text e => (index e "id").as_str = some text ∧ valid_entry nonce text e = true)
      (sys.state.entries.entries.map fun entry => connection_id nonce entry.1) (views.map View.value) := by
    rw [List.forall₂_map_left_iff, List.forall₂_map_right_iff]
    refine Traverse.forall₂_imp_of_mem hall fun entry hentry view hview => ?_
    obtain ⟨hpos, hle, hid, task, -, hentry⟩ := hsound.entries entry.1 entry.2 hentry
    obtain ⟨view', hview', hshows⟩ := exists_view hcfg hentry.shape.below
    obtain rfl := Except.ok.inj (hview.symm.trans hview')
    refine ⟨?_, valid_entry_view hlen hhex hpos (hle.trans_lt hsound.sequence) hrules hentry.shape hentry.fits hshows⟩
    rw [index, get_id, hshows.metadata, hid]
    rfl
  have hnodup : (sys.state.entries.entries.map fun entry => connection_id nonce entry.1).Nodup := by
    refine List.Pairwise.map _ ?_ sys.state.entries.sorted
    exact fun entry entry' hlt heq => hlt.ne (connection_id_injective heq)
  refine ⟨.object [("connections", .array (views.map View.value))], ?_, ?_⟩
  · rw [write_list, hviews]
    rfl
  · have hkeys : keys (.object [("connections", .array (views.map View.value))]) ["connections"] [] = true := rfl
    have harray : (index (.object [("connections", .array (views.map View.value))]) "connections").as_array =
        some (views.map View.value) := rfl
    have hlength : (views.map View.value).length ≤ LIMIT := by
      rw [List.length_map, ← hall.length_eq]
      exact hsound.limit
    rw [valid_response, hkeys, harray, Option.any_some, decide_eq_true hlength,
      valid_entries_of_nodup hids hnodup fun _ _ => List.not_mem_nil]
    rfl

def sampleNonce : String :=
  "0123456789abcdef0123456789abcdef"

def sampleSource : SocketAddr :=
  ⟨.V4 ⟨127, 0, 0, 1⟩, 40000⟩

/-- The registry once it has accepted one connection. -/
def sampleState : State :=
  ((register sampleNonce sampleSource .default).map Prod.snd).getD .default

/-- One client that asks for datagrams is listed while it waits for the first. -/
theorem waiting_listed : ∃ cfg value,
    Config.parse_with_assets config.sampleCrates config.sampleSource [] = .ok cfg ∧
    write_list cfg (update 1 (.inbound .Socks5Udp) sampleState) = .ok value ∧
    valid_response value sampleNonce none = true := by
  obtain ⟨cfg, hcfg, -⟩ := config.sample_accepted
  have hregister : register sampleNonce sampleSource .default = some (1, sampleState) := rfl
  have haccept : Interleaving sampleNonce cfg [.accept sampleSource] ⟨sampleState, SortedMap.empty.insert 1 .handshake⟩ :=
    History.step .start (.accepted hregister)
  have hcall : Interleaving sampleNonce cfg [.accept sampleSource, .call 1 (.inbound .Socks5Udp)]
      ⟨update 1 (.inbound .Socks5Udp) sampleState, (SortedMap.empty.insert 1 .handshake).insert 1 .waiting⟩ :=
    History.step haccept (.called (SortedMap.get_insert_self _ _ _) .associate)
  obtain ⟨value, hvalue, hvalid⟩ := listing_valid (by decide +kernel) (by decide +kernel) hcfg hcall
  exact ⟨cfg, value, hcfg, hvalue, hvalid⟩

end zc.connection
