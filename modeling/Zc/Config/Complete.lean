import Mathlib.Algebra.BigOperators.Fin
import Mathlib.Algebra.Order.BigOperators.Group.Finset
import Mathlib.Data.Finset.Sort
import Zc.Config.WellFormed

/-!
# The search over groups is complete

A graph of groups without a cycle is searched to the end: no member is met on the stack, every
index is in bounds, and each turn lowers a measure that the fuel covers. The stack holds distinct
groups, each a member of the one below it.
-/

namespace zc.config

variable {state : List Mark} {search : Search} {roots : List Nat}

section Search

variable {edges : List (List Nat)} {proxy_count : Nat}

/-- What holds of the search besides `Search.Inv`: the nodes on the stack. -/
structure Search.Stacked (edges : List (List Nat)) (proxy_count : Nat) (search : Search) : Prop where
  length : search.state.length = proxy_count + edges.length
  leaves : ∀ node < proxy_count, search.state[node]? = some .Done
  nodes : ∀ frame ∈ search.stack, search.state[frame.1]? = some .Active
  nodup : (search.stack.map Prod.fst).Nodup
  active : ∀ node, search.state[node]? = some .Active → node ∈ search.stack.map Prod.fst
  chain : (search.stack.map Prod.fst).IsChain (Edge edges proxy_count)
  within : ∀ frame ∈ search.stack, frame.2 ≤ (edges.getD (frame.1 - proxy_count) []).length

theorem succ_le_of_getElem? {index next child : Nat} {members : List Nat} (hmembers : edges[index]? = some members)
    (hchild : members[next]? = some child) : next + 1 ≤ (edges.getD index []).length := by
  rw [List.getD_eq_getElem?_getD, hmembers, Option.getD_some]
  exact (List.getElem?_eq_some_iff.1 hchild).1

/-- The head of a chain is related to all that follows. -/
theorem reflTransGen_of_isChain {α : Type} {r : α → α → Prop} {first other : α} {rest : List α} (hchain : (first :: rest).IsChain r)
    (hother : other ∈ first :: rest) : Relation.ReflTransGen r first other := by
  induction rest generalizing first with
  | nil =>
    obtain rfl := List.mem_singleton.1 hother
    exact .refl
  | cons second rest ih =>
    obtain ⟨hstep, hrest⟩ := List.isChain_cons_cons.1 hchain
    rcases List.mem_cons.1 hother with rfl | hother
    · exact .refl
    · exact .head hstep (ih hrest hother)

namespace Search.Stacked

variable {state : List Mark} {node next : Nat} {below : List (Nat × Nat)} {search : Search}

theorem visit (hstacked : Stacked edges proxy_count ⟨state, (node, next) :: below⟩)
    (hvisit : Search.visit edges proxy_count state node next below = .ok search) : Stacked edges proxy_count search := by
  obtain ⟨hlength, hleaves, hnodes, hnodup, hactive, hchain, hwithin⟩ := hstacked
  have hnode := hnodes _ List.mem_cons_self
  have hlt : node < state.length := (List.getElem?_eq_some_iff.1 hnode).1
  have hgroup : proxy_count ≤ node := by
    by_contra hlow
    rw [hleaves node (by omega)] at hnode
    cases hnode
  simp only [List.map_cons, List.nodup_cons] at hnodup
  cases turn_of_visit hvisit with
  | finish hmembers hnext =>
    have hother : ∀ k, node ≠ k → (state.set node .Done)[k]? = state[k]? := fun k hk => List.getElem?_set_ne hk
    have hself : (state.set node .Done)[node]? = some .Done := List.getElem?_set_self hlt
    refine ⟨List.length_set.trans hlength, fun k hk => ?_, fun frame hframe => ?_, hnodup.2, fun k hk => ?_, ?_,
      fun frame hframe => hwithin frame (List.mem_cons_of_mem _ hframe)⟩
    · exact (hother k (by omega)).trans (hleaves k hk)
    · have hne : node ≠ frame.1 := fun heq => hnodup.1 (heq ▸ List.mem_map_of_mem hframe)
      exact (hother frame.1 hne).trans (hnodes frame (List.mem_cons_of_mem _ hframe))
    · by_cases heq : node = k
      · rw [← heq, hself] at hk
        cases hk
      · rw [hother k heq] at hk
        rcases List.mem_cons.1 (hactive k hk) with hhead | htail
        · exact absurd hhead.symm heq
        · exact htail
    · exact hchain.tail
  | enter hmembers hchild hmark =>
    rename_i members child
    have hchildlt : child < state.length := (List.getElem?_eq_some_iff.1 hmark).1
    have hother : ∀ k, child ≠ k → (state.set child .Active)[k]? = state[k]? := fun k hk => List.getElem?_set_ne hk
    have hfresh : child ∉ node :: below.map Prod.fst := by
      intro hmem
      rcases List.mem_cons.1 hmem with rfl | hmem
      · rw [hnode] at hmark
        cases hmark
      · obtain ⟨frame, hframe, rfl⟩ := List.mem_map.1 hmem
        rw [hnodes frame (List.mem_cons_of_mem _ hframe)] at hmark
        cases hmark
    refine ⟨List.length_set.trans hlength, fun k hk => ?_, fun frame hframe => ?_, ?_, fun k hk => ?_, ?_, ?_⟩
    · rw [hother k (by rintro rfl; rw [hleaves _ hk] at hmark; cases hmark)]
      exact hleaves k hk
    · rcases List.mem_cons.1 hframe with rfl | hframe
      · exact List.getElem?_set_self hchildlt
      · have hmem : frame.1 ∈ node :: below.map Prod.fst := by
          rcases List.mem_cons.1 hframe with rfl | hframe
          · exact List.mem_cons_self
          · exact List.mem_cons_of_mem _ (List.mem_map_of_mem hframe)
        rw [hother frame.1 (fun heq => hfresh (heq ▸ hmem))]
        rcases List.mem_cons.1 hframe with rfl | hframe
        · exact hnode
        · exact hnodes frame (List.mem_cons_of_mem _ hframe)
    · simp only [List.map_cons, List.nodup_cons]
      exact ⟨hfresh, hnodup⟩
    · by_cases heq : child = k
      · exact heq ▸ List.mem_cons_self
      · rw [hother k heq] at hk
        exact List.mem_cons_of_mem _ (hactive k hk)
    · exact List.IsChain.cons_cons ⟨hgroup, members, hmembers, List.mem_of_getElem? hchild⟩ hchain
    · intro frame hframe
      rcases List.mem_cons.1 hframe with rfl | hframe
      · exact Nat.zero_le _
      · rcases List.mem_cons.1 hframe with rfl | hframe
        · exact succ_le_of_getElem? hmembers hchild
        · exact hwithin frame (List.mem_cons_of_mem _ hframe)
  | pass hmembers hchild hmark =>
    refine ⟨hlength, hleaves, fun frame hframe => ?_, by simpa using hnodup, hactive, hchain, fun frame hframe => ?_⟩
    · rcases List.mem_cons.1 hframe with rfl | hframe
      · exact hnode
      · exact hnodes frame (List.mem_cons_of_mem _ hframe)
    · rcases List.mem_cons.1 hframe with rfl | hframe
      · exact succ_le_of_getElem? hmembers hchild
      · exact hwithin frame (List.mem_cons_of_mem _ hframe)

theorem root {root : Nat} (hstacked : Stacked edges proxy_count ⟨state, []⟩) (hroot : state[root]? ≠ some .Done)
    (hlt : root < state.length) : Stacked edges proxy_count ⟨state.set root .Active, [(root, 0)]⟩ := by
  obtain ⟨hlength, hleaves, -, -, hactive, -, -⟩ := hstacked
  have hother : ∀ k, root ≠ k → (state.set root .Active)[k]? = state[k]? := fun k hk => List.getElem?_set_ne hk
  refine ⟨List.length_set.trans hlength, fun k hk => ?_, fun frame hframe => ?_, List.nodup_singleton _, fun k hk => ?_,
    List.isChain_singleton _, fun frame hframe => ?_⟩
  · rw [hother k (by rintro rfl; exact hroot (hleaves _ hk))]
    exact hleaves k hk
  · obtain rfl := List.mem_singleton.1 hframe
    exact List.getElem?_set_self hlt
  · by_cases heq : root = k
    · exact heq ▸ List.mem_singleton_self _
    · rw [hother k heq] at hk
      cases hactive k hk
  · obtain rfl := List.mem_singleton.1 hframe
    exact Nat.zero_le _

/-- The stack never holds more frames than there are groups. -/
theorem length_stack_le (hstacked : Stacked edges proxy_count search) : search.stack.length ≤ edges.length := by
  have hsub : search.stack.map Prod.fst ⊆ List.range' proxy_count edges.length := by
    intro node hmem
    obtain ⟨frame, hframe, rfl⟩ := List.mem_map.1 hmem
    have hnode := hstacked.nodes frame hframe
    have hlt := (List.getElem?_eq_some_iff.1 hnode).1
    rw [hstacked.length] at hlt
    refine List.mem_range'_1.2 ⟨?_, hlt⟩
    by_contra hlow
    rw [hstacked.leaves frame.1 (by omega)] at hnode
    cases hnode
  have hle := (hstacked.nodup.subperm hsub).length_le
  rwa [List.length_map, List.length_range'] at hle

/-- Without a cycle, a turn finds every index in bounds and no member on the stack. -/
theorem exists_visit (hstacked : Stacked edges proxy_count ⟨state, (node, next) :: below⟩)
    (hbound : ∀ members ∈ edges, ∀ member ∈ members, member < proxy_count + edges.length)
    (hacyclic : ∀ k, ¬Relation.TransGen (Edge edges proxy_count) k k) :
    ∃ search, Search.visit edges proxy_count state node next below = .ok search := by
  have hnode := hstacked.nodes _ List.mem_cons_self
  have hlt : node < state.length := (List.getElem?_eq_some_iff.1 hnode).1
  have hlength : state.length = proxy_count + edges.length := hstacked.length
  have hgroup : proxy_count ≤ node := by
    by_contra hlow
    have hleaf := hstacked.leaves node (by omega)
    rw [hnode] at hleaf
    cases hleaf
  have hindex : node - proxy_count < edges.length := by
    omega
  have hmembers : edges[node - proxy_count]? = some edges[node - proxy_count] := List.getElem?_eq_getElem hindex
  have hwithin := hstacked.within _ List.mem_cons_self
  rw [List.getD_eq_getElem?_getD, hmembers, Option.getD_some] at hwithin
  unfold Search.visit
  rw [hmembers]
  dsimp only
  split
  · exact ⟨_, rfl⟩
  · next hne =>
    have hnext : next < edges[node - proxy_count].length := by
      dsimp only at hwithin
      omega
    have hchild : edges[node - proxy_count][next]? = some edges[node - proxy_count][next] := List.getElem?_eq_getElem hnext
    have hmem : edges[node - proxy_count][next] ∈ edges[node - proxy_count] := List.getElem_mem hnext
    have hin : edges[node - proxy_count][next] < state.length :=
      hlength ▸ hbound _ (List.getElem_mem hindex) _ hmem
    rw [hchild]
    dsimp only
    rw [List.getElem?_eq_getElem hin]
    cases hmark : state[edges[node - proxy_count][next]] with
    | Unvisited => exact ⟨_, rfl⟩
    | Done => exact ⟨_, rfl⟩
    | Active =>
      -- a member on the stack would be above itself
      exfalso
      have honstack := hstacked.active _ (by rw [← hmark]; exact List.getElem?_eq_getElem hin)
      have hedge : Edge edges proxy_count edges[node - proxy_count][next] node := ⟨hgroup, _, hmembers, hmem⟩
      have hpath := reflTransGen_of_isChain hstacked.chain honstack
      exact hacyclic _ (Relation.TransGen.head' hedge hpath)

end Search.Stacked

/-! ## Fuel -/

/-- What a group costs before it is entered. -/
def fresh (edges : List (List Nat)) (proxy_count : Nat) (state : List Mark) (index : Nat) : Nat :=
  if state[proxy_count + index]? = some .Unvisited then (edges.getD index []).length + 2 else 0

/-- The turns that a search can still take. -/
def Search.remaining (edges : List (List Nat)) (proxy_count : Nat) (search : Search) : Nat :=
  ∑ index ∈ Finset.range edges.length, fresh edges proxy_count search.state index +
    (search.stack.map fun frame => (edges.getD (frame.1 - proxy_count) []).length - frame.2 + 1).sum

theorem fresh_set_of_ne {node index : Nat} {mark : Mark} (hne : node ≠ proxy_count + index) :
    fresh edges proxy_count (state.set node mark) index = fresh edges proxy_count state index := by
  rw [fresh, fresh, List.getElem?_set_ne hne]

theorem sum_fresh_set {state : List Mark} {node : Nat} {mark : Mark} (hmark : mark ≠ .Unvisited)
    (hnode : state[node]? ≠ some .Unvisited) :
    ∑ index ∈ Finset.range edges.length, fresh edges proxy_count (state.set node mark) index =
      ∑ index ∈ Finset.range edges.length, fresh edges proxy_count state index := by
  refine Finset.sum_congr rfl fun index _ => ?_
  by_cases heq : node = proxy_count + index
  · subst heq
    have hnone : ((state.set (proxy_count + index) mark)[proxy_count + index]?) ≠ some .Unvisited := by
      rw [List.getElem?_set_self']
      cases hget : state[proxy_count + index]? <;> simp [hmark]
    rw [fresh, if_neg hnone, fresh, if_neg hnode]
  · exact fresh_set_of_ne heq

theorem sum_fresh_enter {state : List Mark} {node : Nat} (hlength : state.length = proxy_count + edges.length)
    (hle : proxy_count ≤ node) (hnode : state[node]? = some .Unvisited) :
    ∑ index ∈ Finset.range edges.length, fresh edges proxy_count (state.set node .Active) index +
        ((edges.getD (node - proxy_count) []).length + 2) =
      ∑ index ∈ Finset.range edges.length, fresh edges proxy_count state index := by
  have hlt : node < state.length := (List.getElem?_eq_some_iff.1 hnode).1
  have hmem : node - proxy_count ∈ Finset.range edges.length := Finset.mem_range.2 (by omega)
  have hindex : proxy_count + (node - proxy_count) = node := by
    omega
  rw [← Finset.add_sum_erase _ _ hmem, ← Finset.add_sum_erase _ (fresh edges proxy_count state) hmem]
  have hrest : ∑ index ∈ (Finset.range edges.length).erase (node - proxy_count), fresh edges proxy_count (state.set node .Active) index =
      ∑ index ∈ (Finset.range edges.length).erase (node - proxy_count), fresh edges proxy_count state index := by
    refine Finset.sum_congr rfl fun index hindex' => fresh_set_of_ne ?_
    have hne := Finset.ne_of_mem_erase hindex'
    omega
  have hold : fresh edges proxy_count state (node - proxy_count) = (edges.getD (node - proxy_count) []).length + 2 := by
    rw [fresh, hindex, if_pos hnode]
  have hnew : fresh edges proxy_count (state.set node .Active) (node - proxy_count) = 0 := by
    rw [fresh, hindex, List.getElem?_set_self hlt, if_neg (by simp)]
  omega

/-- Every turn uses up some of what remains. -/
theorem remaining_visit {node next : Nat} {below : List (Nat × Nat)}
    (hstacked : Search.Stacked edges proxy_count ⟨state, (node, next) :: below⟩)
    (hvisit : Search.visit edges proxy_count state node next below = .ok search) :
    search.remaining edges proxy_count < Search.remaining edges proxy_count ⟨state, (node, next) :: below⟩ := by
  have hnode := hstacked.nodes _ List.mem_cons_self
  cases turn_of_visit hvisit with
  | finish hmembers hnext =>
    have hsum := @sum_fresh_set edges proxy_count state node .Done (by simp) (by rw [hnode]; simp)
    simp only [Search.remaining, List.map_cons, List.sum_cons, hsum]
    omega
  | enter hmembers hchild hmark =>
    rename_i members child
    have hle : proxy_count ≤ child := by
      by_contra hlow
      have hleaf := hstacked.leaves child (by omega)
      rw [hmark] at hleaf
      cases hleaf
    have hsum := @sum_fresh_enter edges proxy_count state child hstacked.length hle hmark
    have hsucc := succ_le_of_getElem? hmembers hchild
    simp only [Search.remaining, List.map_cons, List.sum_cons]
    omega
  | pass hmembers hchild hmark =>
    have hsucc := succ_le_of_getElem? hmembers hchild
    simp only [Search.remaining, List.map_cons, List.sum_cons]
    omega

theorem exists_run (hbound : ∀ members ∈ edges, ∀ member ∈ members, member < proxy_count + edges.length)
    (hacyclic : ∀ k, ¬Relation.TransGen (Edge edges proxy_count) k k) {fuel : Nat}
    (hstacked : Search.Stacked edges proxy_count search) (hfuel : search.remaining edges proxy_count < fuel) :
    ∃ state, Search.run edges proxy_count fuel search = .ok state ∧ Search.Stacked edges proxy_count ⟨state, []⟩ := by
  induction fuel generalizing search with
  | zero => exact absurd hfuel (Nat.not_lt_zero _)
  | succ fuel ih =>
    obtain ⟨state, stack⟩ := search
    cases stack with
    | nil => exact ⟨state, rfl, hstacked⟩
    | cons frame below =>
      obtain ⟨node, next⟩ := frame
      obtain ⟨search, hvisit⟩ := hstacked.exists_visit hbound hacyclic
      have hless := remaining_visit hstacked hvisit
      obtain ⟨final, hfinal, hstacked'⟩ := ih (hstacked.visit hvisit) (by omega)
      refine ⟨final, ?_, hstacked'⟩
      simp only [Search.run, bind_eq_ok_iff]
      exact ⟨search, hvisit, hfinal⟩

theorem search_fuel_eq (edges : List (List Nat)) :
    search_fuel edges = ∑ index ∈ Finset.range edges.length, ((edges.getD index []).length + 2) + 1 := by
  rw [search_fuel, Finset.sum_range, ← List.sum_ofFn]
  congr 2
  apply List.ext_getElem
  · simp
  · intro i hi _
    simp

/-- The fuel of one root covers a whole search. -/
theorem remaining_root {root : Nat} (hlength : state.length = proxy_count + edges.length) (hle : proxy_count ≤ root)
    (hlt : root < state.length) :
    Search.remaining edges proxy_count ⟨state.set root .Active, [(root, 0)]⟩ < search_fuel edges := by
  have hmem : root - proxy_count ∈ Finset.range edges.length := Finset.mem_range.2 (by omega)
  have hindex : proxy_count + (root - proxy_count) = root := by
    omega
  have hrest : ∑ index ∈ (Finset.range edges.length).erase (root - proxy_count), fresh edges proxy_count (state.set root .Active) index ≤
      ∑ index ∈ (Finset.range edges.length).erase (root - proxy_count), ((edges.getD index []).length + 2) := by
    refine Finset.sum_le_sum fun index _ => ?_
    unfold fresh
    split <;> omega
  have hself : fresh edges proxy_count (state.set root .Active) (root - proxy_count) = 0 := by
    rw [fresh, hindex, List.getElem?_set_self hlt, if_neg (by simp)]
  rw [search_fuel_eq, Search.remaining, ← Finset.add_sum_erase _ _ hmem, ← Finset.add_sum_erase _ (fun index => (edges.getD index []).length + 2) hmem]
  simp only [List.map_cons, List.map_nil, List.sum_cons, List.sum_nil]
  omega

theorem exists_search_roots (hbound : ∀ members ∈ edges, ∀ member ∈ members, member < proxy_count + edges.length)
    (hacyclic : ∀ k, ¬Relation.TransGen (Edge edges proxy_count) k k)
    (hroots : ∀ root ∈ roots, proxy_count ≤ root ∧ root < proxy_count + edges.length)
    (hstacked : Search.Stacked edges proxy_count ⟨state, []⟩) :
    ∃ final, search_roots edges proxy_count roots state = .ok final := by
  induction roots generalizing state with
  | nil => exact ⟨state, rfl⟩
  | cons root roots ih =>
    rw [List.forall_mem_cons] at hroots
    rw [search_roots]
    split
    · exact ih hroots.2 hstacked
    · next hroot =>
      have hlength : state.length = proxy_count + edges.length := hstacked.length
      have hlt : root < state.length := by
        omega
      obtain ⟨middle, hrun, hmiddle⟩ :=
        exists_run hbound hacyclic (hstacked.root hroot hlt) (remaining_root hlength hroots.1.1 hlt)
      obtain ⟨final, hfinal⟩ := ih hroots.2 hmiddle
      exact ⟨final, bind_eq_ok_iff.2 ⟨middle, hrun, hfinal⟩⟩

/-! ## Whole runs -/

theorem Search.Stacked.start (edges : List (List Nat)) (proxy_count : Nat) :
    Search.Stacked edges proxy_count
      ⟨List.replicate proxy_count .Done ++ List.replicate edges.length .Unvisited, []⟩ := by
  refine ⟨by simp, fun node hnode => ?_, by simp, List.nodup_nil, fun node hnode => ?_, List.isChain_nil, by simp⟩
  · rw [List.getElem?_append_left (by simpa using hnode), List.getElem?_replicate_of_lt hnode]
  · have hmem := List.mem_of_getElem? hnode
    simp [List.mem_replicate] at hmem

/-- The searches that the loops of `resolve_groups` go through, with the roots still to come. -/
inductive Search.Reached (edges : List (List Nat)) (proxy_count : Nat) : List Nat → Search → Prop where
  | start : Reached edges proxy_count (List.range' proxy_count edges.length)
      ⟨List.replicate proxy_count .Done ++ List.replicate edges.length .Unvisited, []⟩
  | skip {root : Nat} {roots : List Nat} {state : List Mark} (hreached : Reached edges proxy_count (root :: roots) ⟨state, []⟩)
      (hroot : state[root]? = some .Done) : Reached edges proxy_count roots ⟨state, []⟩
  | root {root : Nat} {roots : List Nat} {state : List Mark} (hreached : Reached edges proxy_count (root :: roots) ⟨state, []⟩)
      (hroot : state[root]? ≠ some .Done) : Reached edges proxy_count roots ⟨state.set root .Active, [(root, 0)]⟩
  | visit {roots : List Nat} {state : List Mark} {node next : Nat} {below : List (Nat × Nat)} {search : Search}
      (hreached : Reached edges proxy_count roots ⟨state, (node, next) :: below⟩)
      (hvisit : Search.visit edges proxy_count state node next below = .ok search) :
      Reached edges proxy_count roots search

theorem Search.Reached.stacked (hreached : Search.Reached edges proxy_count roots search) :
    search.Stacked edges proxy_count ∧ ∀ root ∈ roots, root < proxy_count + edges.length := by
  induction hreached with
  | start => exact ⟨.start edges proxy_count, fun root hroot => (List.mem_range'_1.1 hroot).2⟩
  | skip _ hroot ih => exact ⟨ih.1, fun root hroot => ih.2 root (List.mem_cons_of_mem _ hroot)⟩
  | root _ hroot ih =>
    refine ⟨ih.1.root hroot ?_, fun root hroot => ih.2 root (List.mem_cons_of_mem _ hroot)⟩
    have hlength := ih.1.length
    dsimp only at hlength
    rw [hlength]
    exact ih.2 _ List.mem_cons_self
  | visit _ hvisit ih => exact ⟨ih.1.visit hvisit, ih.2⟩

theorem Search.Reached.run {fuel : Nat} (hreached : Search.Reached edges proxy_count roots search)
    (hrun : Search.run edges proxy_count fuel search = .ok state) :
    Search.Reached edges proxy_count roots ⟨state, []⟩ := by
  induction fuel generalizing search with
  | zero => cases hrun
  | succ fuel ih =>
    obtain ⟨before, stack⟩ := search
    cases stack with
    | nil =>
      obtain rfl := Except.ok.inj hrun
      exact hreached
    | cons frame below =>
      simp only [Search.run, bind_eq_ok_iff] at hrun
      obtain ⟨after, hvisit, hrest⟩ := hrun
      exact ih (.visit hreached hvisit) hrest

/-- The searches reached are those of the loop: it ends in one of them. -/
theorem Search.Reached.search_roots {final : List Mark} (hreached : Search.Reached edges proxy_count roots ⟨state, []⟩)
    (hsearch : config.search_roots edges proxy_count roots state = .ok final) :
    Search.Reached edges proxy_count [] ⟨final, []⟩ := by
  induction roots generalizing state with
  | nil =>
    obtain rfl := Except.ok.inj hsearch
    exact hreached
  | cons root roots ih =>
    rw [config.search_roots] at hsearch
    split at hsearch
    · next hroot => exact ih (.skip hreached hroot) hsearch
    · next hroot =>
      obtain ⟨middle, hrun, hrest⟩ := bind_eq_ok_iff.1 hsearch
      exact ih ((Search.Reached.root hreached hroot).run hrun) hrest

end Search

end zc.config
