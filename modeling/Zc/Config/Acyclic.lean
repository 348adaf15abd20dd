import Mathlib.Tactic.Cases
import Zc.Config.Groups

namespace zc.config

/-- `child` is a member of the group at `node`. -/
def Edge (edges : List (List Nat)) (proxy_count : Nat) (child node : Nat) : Prop :=
  proxy_count ≤ node ∧ ∃ members, edges[node - proxy_count]? = some members ∧ child ∈ members

variable {state : List Mark} {node next fuel : Nat} {below : List (Nat × Nat)} {search : Search}

section Search

variable {edges : List (List Nat)} {proxy_count : Nat}

/-- What one turn of the search can do: finish the innermost frame, enter an unvisited member, or
    pass over a finished one. -/
inductive Turn (edges : List (List Nat)) (proxy_count : Nat) (state : List Mark) (node next : Nat)
    (below : List (Nat × Nat)) : Search → Prop where
  | finish {members : List Nat} (hmembers : edges[node - proxy_count]? = some members)
      (hnext : next = members.length) : Turn edges proxy_count state node next below ⟨state.set node .Done, below⟩
  | enter {members : List Nat} {child : Nat} (hmembers : edges[node - proxy_count]? = some members)
      (hchild : members[next]? = some child) (hmark : state[child]? = some .Unvisited) :
      Turn edges proxy_count state node next below
        ⟨state.set child .Active, (child, 0) :: (node, next + 1) :: below⟩
  | pass {members : List Nat} {child : Nat} (hmembers : edges[node - proxy_count]? = some members)
      (hchild : members[next]? = some child) (hmark : state[child]? = some .Done) :
      Turn edges proxy_count state node next below ⟨state, (node, next + 1) :: below⟩

theorem turn_of_visit (hvisit : Search.visit edges proxy_count state node next below = .ok search) :
    Turn edges proxy_count state node next below search := by
  unfold Search.visit at hvisit
  split at hvisit
  · cases hvisit
  · rename_i members hmembers
    split at hvisit
    · rename_i hnext
      obtain rfl := Except.ok.inj hvisit
      exact .finish hmembers hnext
    · split at hvisit
      · cases hvisit
      · rename_i child hchild
        split at hvisit
        · cases hvisit
        · rename_i hmark
          obtain rfl := Except.ok.inj hvisit
          exact .enter hmembers hchild hmark
        · cases hvisit
        · rename_i hmark
          obtain rfl := Except.ok.inj hvisit
          exact .pass hmembers hchild hmark

/-- Every member a frame has gone past is finished, but for the one the frame above it stands for. -/
def FramesOk (edges : List (List Nat)) (proxy_count : Nat) (state : List Mark) :
    (above : Option Nat) → List (Nat × Nat) → Prop
  | _, [] => True
  | above, (node, next) :: below =>
    proxy_count ≤ node ∧ node < state.length ∧
      (∀ members, edges[node - proxy_count]? = some members → ∀ j < next, ∀ member,
        members[j]? = some member → state[member]? = some .Done ∨ above = some member) ∧
      FramesOk edges proxy_count state (some node) below

theorem FramesOk.mono {state' : List Mark} {above : Option Nat} {stack : List (Nat × Nat)}
    (hframes : FramesOk edges proxy_count state above stack) (hlength : state'.length = state.length)
    (hdone : ∀ node : Nat, state[node]? = some .Done → state'[node]? = some .Done) :
    FramesOk edges proxy_count state' above stack := by
  induction stack generalizing above with
  | nil => trivial
  | cons frame below ih =>
    obtain ⟨hleaf, hnode, hpast, hbelow⟩ := hframes
    refine ⟨hleaf, hlength ▸ hnode, ?_, ih hbelow⟩
    intro members hmembers j hj member hmember
    exact (hpast members hmembers j hj member hmember).imp_left (hdone member)

/-- Once the node above is finished, the frame below has only finished members behind it. -/
theorem FramesOk.popped {stack : List (Nat × Nat)} (hframes : FramesOk edges proxy_count state (some node) stack)
    (hnode : state[node]? = some .Done) : FramesOk edges proxy_count state none stack := by
  cases stack with
  | nil => trivial
  | cons frame below =>
    obtain ⟨hleaf, hlt, hpast, hbelow⟩ := hframes
    refine ⟨hleaf, hlt, ?_, hbelow⟩
    intro members hmembers j hj member hmember
    rcases hpast members hmembers j hj member hmember with hdone | habove
    · exact .inl hdone
    · obtain rfl := Option.some.inj habove
      exact .inl hnode

structure Search.Inv (edges : List (List Nat)) (proxy_count : Nat) (search : Search) : Prop where
  leaves : ∀ node < proxy_count, search.state[node]? = some .Done
  done_acc : ∀ node, search.state[node]? = some .Done → Acc (Edge edges proxy_count) node
  active : ∀ node, search.state[node]? = some .Active → ∃ next, (node, next) ∈ search.stack
  frames : FramesOk edges proxy_count search.state none search.stack

private theorem done_set {index : Nat} {mark : Mark} (hmark : state[index]? ≠ some .Done ∨ mark = .Done)
    (hdone : state[node]? = some .Done) : (state.set index mark)[node]? = some .Done := by
  by_cases heq : index = node
  · subst heq
    have hlt : index < state.length := (List.getElem?_eq_some_iff.1 hdone).1
    rcases hmark with hne | rfl
    · exact absurd hdone hne
    · rw [List.getElem?_set_self hlt]
  · rw [List.getElem?_set_ne heq, hdone]

/-- A node whose members are all accessible is accessible. -/
private theorem acc_of_members {members : List Nat} (hmembers : edges[node - proxy_count]? = some members)
    (hacc : ∀ member ∈ members, Acc (Edge edges proxy_count) member) : Acc (Edge edges proxy_count) node := by
  refine Acc.intro node ?_
  rintro child ⟨_, members', hmembers', hchild⟩
  obtain rfl := Option.some.inj (hmembers.symm.trans hmembers')
  exact hacc child hchild

theorem Search.Inv.visit (hinv : Search.Inv edges proxy_count ⟨state, (node, next) :: below⟩)
    (hvisit : Search.visit edges proxy_count state node next below = .ok search) :
    Search.Inv edges proxy_count search := by
  obtain ⟨hleaves, hacc, hactive, hleaf, hlt, hpast, hbelow⟩ := hinv
  cases turn_of_visit hvisit with
  | finish hmembers hnext =>
    rename_i members
    have hself : (state.set node .Done)[node]? = some .Done := List.getElem?_set_self hlt
    have hdone : ∀ k : Nat, state[k]? = some .Done → (state.set node .Done)[k]? = some .Done :=
      fun k => done_set (.inr rfl)
    refine ⟨fun k hk => hdone k (hleaves k hk), ?_, ?_, ?_⟩
    · intro k hk
      by_cases heq : node = k
      · subst heq
        apply acc_of_members hmembers
        intro member hmember
        obtain ⟨j, hj⟩ := List.mem_iff_getElem?.1 hmember
        have hjlt : j < next := hnext ▸ (List.getElem?_eq_some_iff.1 hj).1
        rcases hpast members hmembers j hjlt member hj with hmark | habove
        · exact hacc member hmark
        · cases habove
      · exact hacc k (by simpa [List.getElem?_set_ne heq] using hk)
    · intro k hk
      by_cases heq : node = k
      · subst heq
        rw [hself] at hk
        cases hk
      · obtain ⟨next', hmem⟩ := hactive k (by simpa [List.getElem?_set_ne heq] using hk)
        rcases List.mem_cons.1 hmem with hhead | htail
        · exact absurd (Prod.mk.inj hhead).1.symm heq
        · exact ⟨next', htail⟩
    · exact (hbelow.mono (List.length_set) hdone).popped hself
  | enter hmembers hchild hmark =>
    rename_i members child
    have hne : state[child]? ≠ some .Done := by
      rw [hmark]
      simp
    have hdone : ∀ k : Nat, state[k]? = some .Done → (state.set child .Active)[k]? = some .Done :=
      fun k => done_set (.inl hne)
    have hchildlt : child < state.length := (List.getElem?_eq_some_iff.1 hmark).1
    have hchildleaf : proxy_count ≤ child := by
      by_contra hlow
      exact hne (hleaves child (by omega))
    refine ⟨fun k hk => hdone k (hleaves k hk), ?_, ?_, ?_⟩
    · intro k hk
      by_cases heq : child = k
      · subst heq
        rw [List.getElem?_set_self hchildlt] at hk
        cases hk
      · exact hacc k (by simpa [List.getElem?_set_ne heq] using hk)
    · intro k hk
      by_cases heq : child = k
      · exact ⟨0, by simp [heq]⟩
      · obtain ⟨next', hmem⟩ := hactive k (by simpa [List.getElem?_set_ne heq] using hk)
        rcases List.mem_cons.1 hmem with hhead | htail
        · exact ⟨next + 1, by simp [(Prod.mk.inj hhead).1]⟩
        · exact ⟨next', by simp [htail]⟩
    · refine ⟨hchildleaf, by simpa using hchildlt, ?_, hleaf, by simpa using hlt, ?_,
        hbelow.mono List.length_set hdone⟩
      · intro _ _ j hj
        exact absurd hj (Nat.not_lt_zero j)
      · intro members' hmembers' j hj member hmember
        obtain rfl := Option.some.inj (hmembers.symm.trans hmembers')
        by_cases hlast : j = next
        · subst hlast
          rw [hchild] at hmember
          exact .inr hmember
        · rcases hpast _ hmembers j (by omega) member hmember with hdone' | habove
          · exact .inl (hdone member hdone')
          · cases habove
  | pass hmembers hchild hmark =>
    refine ⟨hleaves, hacc, ?_, hleaf, hlt, ?_, hbelow⟩
    · intro k hk
      obtain ⟨next', hmem⟩ := hactive k hk
      rcases List.mem_cons.1 hmem with hhead | htail
      · exact ⟨next + 1, by simp [(Prod.mk.inj hhead).1]⟩
      · exact ⟨next', by simp [htail]⟩
    · intro members' hmembers' j hj member hmember
      obtain rfl := Option.some.inj (hmembers.symm.trans hmembers')
      by_cases hlast : j = next
      · subst hlast
        rw [hchild] at hmember
        obtain rfl := Option.some.inj hmember
        exact .inl hmark
      · exact hpast _ hmembers j (by omega) member hmember

/-- A run of the search keeps its invariant and ends with an empty stack. -/
theorem Search.Inv.run (hinv : Search.Inv edges proxy_count search)
    (hrun : Search.run edges proxy_count fuel search = .ok state) : Search.Inv edges proxy_count ⟨state, []⟩ := by
  induction fuel generalizing search with
  | zero => cases hrun
  | succ fuel ih =>
    obtain ⟨before, stack⟩ := search
    cases stack with
    | nil =>
      obtain rfl := Except.ok.inj hrun
      exact hinv
    | cons frame below =>
      simp only [Search.run, bind_eq_ok_iff] at hrun
      obtain ⟨after, hvisit, hrest⟩ := hrun
      exact ih (hinv.visit hvisit) hrest

private theorem visited_set {index : Nat} {mark : Mark} (hmark : mark ≠ .Unvisited)
    (hnode : state[node]? ≠ some .Unvisited) : (state.set index mark)[node]? ≠ some .Unvisited := by
  by_cases heq : index = node
  · subst heq
    rw [List.getElem?_set_self']
    cases hget : state[index]? <;> simp [hmark]
  · rwa [List.getElem?_set_ne heq]

/-- No turn makes a visited node unvisited again. -/
theorem visited_of_visit {k : Nat} (hvisit : Search.visit edges proxy_count state node next below = .ok search)
    (hk : state[k]? ≠ some .Unvisited) : search.state[k]? ≠ some .Unvisited := by
  cases turn_of_visit hvisit with
  | finish => exact visited_set (by simp) hk
  | enter => exact visited_set (by simp) hk
  | pass => exact hk

theorem visited_of_run {k : Nat} (hrun : Search.run edges proxy_count fuel search = .ok state)
    (hk : search.state[k]? ≠ some .Unvisited) : state[k]? ≠ some .Unvisited := by
  induction fuel generalizing search with
  | zero => cases hrun
  | succ fuel ih =>
    obtain ⟨before, stack⟩ := search
    cases stack with
    | nil =>
      obtain rfl := Except.ok.inj hrun
      exact hk
    | cons frame below =>
      simp only [Search.run, bind_eq_ok_iff] at hrun
      obtain ⟨after, hvisit, hrest⟩ := hrun
      exact ih hrest (visited_of_visit hvisit hk)

/-- Entering a root starts a search within the invariant. -/
private theorem Search.Inv.root {root : Nat} (hinv : Search.Inv edges proxy_count ⟨state, []⟩)
    (hroot : state[root]? ≠ some .Done) (hlt : root < state.length) :
    Search.Inv edges proxy_count ⟨state.set root .Active, [(root, 0)]⟩ := by
  obtain ⟨hleaves, hacc, hactive, -⟩ := hinv
  have hleaf : proxy_count ≤ root := by
    by_contra hlow
    exact hroot (hleaves root (by omega))
  refine ⟨?_, ?_, ?_, hleaf, by simpa using hlt, ?_, trivial⟩
  · intro node hnode
    exact done_set (.inl hroot) (hleaves node hnode)
  · intro node hnode
    by_cases heq : root = node
    · subst heq
      rw [List.getElem?_set_self hlt] at hnode
      cases hnode
    · exact hacc node (by simpa [List.getElem?_set_ne heq] using hnode)
  · intro node hnode
    by_cases heq : root = node
    · exact ⟨0, by simp [heq]⟩
    · obtain ⟨next, hmem⟩ := hactive node (by simpa [List.getElem?_set_ne heq] using hnode)
      exact absurd hmem (by simp)
  · intro _ _ j hj
    exact absurd hj (Nat.not_lt_zero j)

theorem length_of_visit (hvisit : Search.visit edges proxy_count state node next below = .ok search) :
    search.state.length = state.length := by
  cases turn_of_visit hvisit with
  | finish => exact List.length_set
  | enter => exact List.length_set
  | pass => rfl

theorem length_of_run (hrun : Search.run edges proxy_count fuel search = .ok state) :
    state.length = search.state.length := by
  induction fuel generalizing search with
  | zero => cases hrun
  | succ fuel ih =>
    obtain ⟨before, stack⟩ := search
    cases stack with
    | nil =>
      obtain rfl := Except.ok.inj hrun
      rfl
    | cons frame below =>
      simp only [Search.run, bind_eq_ok_iff] at hrun
      obtain ⟨after, hvisit, hrest⟩ := hrun
      exact (ih hrest).trans (length_of_visit hvisit)

/-- The search over a list of roots finishes every one of them. -/
theorem search_roots_done {roots : List Nat} {final : List Mark} (hinv : Search.Inv edges proxy_count ⟨state, []⟩)
    (hroots : ∀ root ∈ roots, root < state.length) (hsearch : search_roots edges proxy_count roots state = .ok final) :
    Search.Inv edges proxy_count ⟨final, []⟩ ∧ final.length = state.length ∧
      ∀ node, node ∈ roots ∨ state[node]? = some .Done → final[node]? ≠ some .Unvisited := by
  induction roots generalizing state with
  | nil =>
    obtain rfl := Except.ok.inj hsearch
    refine ⟨hinv, rfl, ?_⟩
    rintro node (hmem | hdone)
    · cases hmem
    · rw [hdone]
      simp
  | cons root roots ih =>
    rw [search_roots] at hsearch
    have hlt : root < state.length := hroots root List.mem_cons_self
    split at hsearch
    · rename_i hdone
      obtain ⟨hfinal, hlength, hvisited⟩ := ih hinv (fun k hk => hroots k (List.mem_cons_of_mem _ hk)) hsearch
      refine ⟨hfinal, hlength, ?_⟩
      rintro node (hmem | hnode)
      · rcases List.mem_cons.1 hmem with rfl | hmem
        · exact hvisited _ (.inr hdone)
        · exact hvisited node (.inl hmem)
      · exact hvisited node (.inr hnode)
    · rename_i hroot
      simp only [bind_eq_ok_iff] at hsearch
      obtain ⟨middle, hrun, hrest⟩ := hsearch
      have hmiddle := (hinv.root hroot hlt).run hrun
      have hlength : middle.length = state.length := by
        rw [length_of_run hrun, List.length_set]
      have hfinished : ∀ node : Nat, (state.set root .Active)[node]? ≠ some .Unvisited →
          node < state.length → middle[node]? = some .Done := by
        intro node hnode hnodelt
        have hkept := visited_of_run hrun hnode
        have hactive := hmiddle.active node
        cases hmark : middle[node]? with
        | none =>
          have := List.getElem?_eq_none_iff.1 hmark
          omega
        | some mark =>
          cases mark with
          | Unvisited => exact absurd hmark hkept
          | Active =>
            obtain ⟨_, hmem⟩ := hactive hmark
            cases hmem
          | Done => rfl
      obtain ⟨hfinal, hlength', hvisited⟩ :=
        ih hmiddle (fun k hk => hlength ▸ hroots k (List.mem_cons_of_mem _ hk)) hrest
      refine ⟨hfinal, hlength'.trans hlength, ?_⟩
      rintro node (hmem | hnode)
      · rcases List.mem_cons.1 hmem with rfl | hmem
        · refine hvisited _ (.inr (hfinished _ ?_ hlt))
          rw [List.getElem?_set_self hlt]
          simp
        · exact hvisited node (.inl hmem)
      · have hnodelt : node < state.length := (List.getElem?_eq_some_iff.1 hnode).1
        refine hvisited node (.inr (hfinished node ?_ hnodelt))
        exact visited_set (by simp) (by simp [hnode])

/-- The state the search starts from, with the proxies finished. -/
private theorem Search.Inv.start (edges : List (List Nat)) (proxy_count groups : Nat) :
    Search.Inv edges proxy_count ⟨List.replicate proxy_count .Done ++ List.replicate groups .Unvisited, []⟩ := by
  have hmark : ∀ node mark, (List.replicate proxy_count Mark.Done ++ List.replicate groups .Unvisited)[node]? =
      some mark → (mark = .Done ∧ node < proxy_count) ∨ mark = .Unvisited := by
    intro node mark hget
    rw [List.getElem?_append] at hget
    split at hget
    · rename_i hlt
      rw [List.length_replicate] at hlt
      rw [List.getElem?_replicate_of_lt hlt] at hget
      exact .inl ⟨(Option.some.inj hget).symm, hlt⟩
    · exact .inr (List.eq_of_mem_replicate (List.mem_of_getElem? hget))
  refine ⟨?_, ?_, ?_, trivial⟩
  · intro node hnode
    rw [List.getElem?_append_left (by simpa using hnode), List.getElem?_replicate_of_lt hnode]
  · intro node hnode
    rcases hmark node _ hnode with ⟨-, hlt⟩ | hunvisited
    · refine Acc.intro node ?_
      rintro child ⟨hle, -⟩
      omega
    · cases hunvisited
  · intro node hnode
    rcases hmark node _ hnode with ⟨hdone, -⟩ | hunvisited
    · cases hdone
    · cases hunvisited

/-- Groups that the search accepts have no cycle through any member, selected or not. -/
theorem wellFounded_of_search_roots {groups : Nat} {final : List Mark} (hgroups : edges.length = groups)
    (hsearch : search_roots edges proxy_count (List.range' proxy_count groups)
      (List.replicate proxy_count .Done ++ List.replicate groups .Unvisited) = .ok final) :
    WellFounded (Edge edges proxy_count) := by
  obtain ⟨hinv, hlength, hvisited⟩ := search_roots_done (Search.Inv.start edges proxy_count groups)
    (by
      intro root hroot
      simp only [List.length_append, List.length_replicate]
      exact (List.mem_range'_1.1 hroot).2) hsearch
  simp only [List.length_append, List.length_replicate] at hlength
  refine ⟨fun node => ?_⟩
  by_cases hleaf : node < proxy_count
  · exact hinv.done_acc node (hinv.leaves node hleaf)
  by_cases hnode : node < proxy_count + groups
  · have hmark := hvisited node (.inl (List.mem_range'_1.2 ⟨by omega, hnode⟩))
    have hlt : node < final.length := by omega
    apply hinv.done_acc node
    simp only [List.getElem?_eq_getElem hlt] at hmark ⊢
    cases hget : final[node] with
    | Unvisited => exact absurd (congrArg some hget) hmark
    | Active =>
      obtain ⟨_, hmem⟩ := hinv.active node (by simp only [List.getElem?_eq_getElem hlt, hget])
      cases hmem
    | Done => rfl
  · refine Acc.intro node ?_
    rintro child ⟨-, members, hmembers, -⟩
    have := (List.getElem?_eq_some_iff.1 hmembers).1
    omega

end Search

end zc.config
