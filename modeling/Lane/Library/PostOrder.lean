import Mathlib.Data.Finset.Card
import Mathlib.Logic.Relation

/-! Depth-first visits that list every node after the nodes below it.

A node is explored when `next` gives it a list of nodes to visit, and passed over otherwise.
What was met once is never looked at again.
-/

namespace PostOrder

open Relation

variable {α : Type*} {next : α → Option (List α)}

-----------------------------------------------------------------------------------------
-- Visits and the graph they walk
-----------------------------------------------------------------------------------------

/-- A finished visit of a list of nodes: the nodes listed and met before it, and after it. -/
inductive Visits [DecidableEq α] (next : α → Option (List α))
    : List α → List α × Finset α → List α × Finset α → Prop
  | done {state} : Visits next [] state state
  | again {node rest out seen final} (met : node ∈ seen)
    (after : Visits next rest (out, seen) final)
    : Visits next (node :: rest) (out, seen) final
  | pass {node rest out seen final} (fresh : node ∉ seen) (unexplored : next node = none)
    (after : Visits next rest (out, insert node seen) final)
    : Visits next (node :: rest) (out, seen) final
  | explore {node children rest out seen listed met final} (fresh : node ∉ seen)
    (explored : next node = some children)
    (below : Visits next children (out, insert node seen) (listed, met))
    (after : Visits next rest (listed ++ [node], met) final)
    : Visits next (node :: rest) (out, seen) final

/-- An explored node leads to every node that is visited below it. -/
def Leads (next : α → Option (List α)) (a b : α) : Prop :=
  ∃ children, next a = some children ∧ b ∈ children

/-- A node that one of the given nodes leads to, in any number of steps. -/
def Reached (next : α → Option (List α)) (nodes : List α) (b : α) : Prop :=
  ∃ a ∈ nodes, ReflTransGen (Leads next) a b

/-- What is reached below an explored node lies strictly below that node. -/
theorem Reached.below {node : α} {children : List α} (explored : next node = some children)
    {b : α} (reached : Reached next children b)
    : TransGen (Leads next) node b := by
  obtain ⟨a, member, path⟩ := reached
  exact TransGen.head' ⟨children, explored, member⟩ path

theorem Reached.cons {node : α} {rest : List α} {b : α} (reached : Reached next rest b)
    : Reached next (node :: rest) b := by
  obtain ⟨a, member, path⟩ := reached
  exact ⟨a, List.mem_cons_of_mem _ member, path⟩

theorem Reached.trans {nodes : List α} {a b : α} (reached : Reached next nodes a)
    (path : ReflTransGen (Leads next) a b)
    : Reached next nodes b := by
  obtain ⟨root, member, first⟩ := reached
  exact ⟨root, member, first.trans path⟩

variable [DecidableEq α]

/-- Two finished visits from the same place end alike. -/
theorem Visits.deterministic {nodes : List α} {state final other : List α × Finset α}
    (first : Visits next nodes state final) (second : Visits next nodes state other)
    : final = other := by
  induction first generalizing other with
  | done =>
      cases second
      rfl
  | again met _ ih =>
      cases second with
      | again _ after => exact ih after
      | pass fresh => exact absurd met fresh
      | explore fresh => exact absurd met fresh
  | pass fresh unexplored _ ih =>
      cases second with
      | again met => exact absurd met fresh
      | pass _ _ after => exact ih after
      | explore _ explored =>
          rw [unexplored] at explored
          cases explored
  | explore fresh explored _ _ belowIh afterIh =>
      cases second with
      | again met => exact absurd met fresh
      | pass _ unexplored =>
          rw [unexplored] at explored
          cases explored
      | explore _ again below after =>
          obtain rfl := Option.some.inj (explored.symm.trans again)
          cases belowIh below
          exact afterIh after

-----------------------------------------------------------------------------------------
-- What a visit adds
-----------------------------------------------------------------------------------------

/-- The nodes a visit lists come after those listed before; they are explored nodes, met by
this visit and reached from its nodes.
-/
structure Adds (next : α → Option (List α)) (nodes : List α)
    (before after : List α × Finset α) (added : List α)
    : Prop where
  listed : after.1 = before.1 ++ added
  kept : before.2 ⊆ after.2
  unique : added.Nodup
  fresh : ∀ a ∈ added, a ∉ before.2 ∧ a ∈ after.2
  explored : ∀ a ∈ added, ∃ children, next a = some children
  reached : ∀ a ∈ added, Reached next nodes a
  visited : ∀ a ∈ nodes, a ∈ after.2
  closed
    : ∀ a ∈ after.2, a ∉ before.2 → ∀ children, next a = some children →
        a ∈ added ∧ ∀ b ∈ children, b ∈ after.2

variable {node : α} {rest out listed children inner outer added : List α} {seen met : Finset α}
variable {final : List α × Finset α}

omit [DecidableEq α] in
theorem Adds.done (state : List α × Finset α) : Adds next [] state state [] := by
  constructor <;> simp_all

omit [DecidableEq α] in
theorem Adds.again (known : node ∈ seen) (adds : Adds next rest (out, seen) final added)
    : Adds next (node :: rest) (out, seen) final added where
  listed := adds.listed
  kept := adds.kept
  unique := adds.unique
  fresh := adds.fresh
  explored := adds.explored
  reached := fun a member => (adds.reached a member).cons
  visited := by
    intro a member
    rcases List.mem_cons.mp member with same | later
    · exact same ▸ adds.kept known
    · exact adds.visited a later
  closed := adds.closed

theorem Adds.pass (unexplored : next node = none)
    (adds : Adds next rest (out, insert node seen) final added)
    : Adds next (node :: rest) (out, seen) final added where
  listed := adds.listed
  kept := (Finset.subset_insert _ _).trans adds.kept
  unique := adds.unique
  fresh := by
    intro a member
    obtain ⟨unmet, later⟩ := adds.fresh a member
    exact ⟨fun early => unmet (Finset.mem_insert_of_mem early), later⟩
  explored := adds.explored
  reached := fun a member => (adds.reached a member).cons
  visited := by
    intro a member
    rcases List.mem_cons.mp member with same | later
    · exact same ▸ adds.kept (Finset.mem_insert_self _ _)
    · exact adds.visited a later
  closed := by
    intro a later unmet children found
    refine adds.closed a later ?_ children found
    intro early
    rcases Finset.mem_insert.mp early with same | early
    · rw [same, unexplored] at found
      cases found
    · exact unmet early

/-- An explored node is listed between the nodes below it and those that come later. -/
theorem Adds.explore (unmet : node ∉ seen) (found : next node = some children)
    (below : Adds next children (out, insert node seen) (listed, met) inner)
    (after : Adds next rest (listed ++ [node], met) final outer)
    : Adds next (node :: rest) (out, seen) final (inner ++ node :: outer) := by
  have nodeMet : node ∈ met := below.kept (Finset.mem_insert_self _ _)
  have nodeLater : node ∈ final.2 := after.kept nodeMet
  have widen : ∀ a, a ∉ insert node seen → a ∉ seen :=
    fun a unseen early => unseen (Finset.mem_insert_of_mem early)
  have split : ∀ a ∈ inner ++ node :: outer, a ∈ inner ∨ a = node ∨ a ∈ outer :=
    fun a member => by simpa using member
  constructor
  case listed =>
    have ends : final.1 = listed ++ [node] ++ outer := after.listed
    have starts : listed = out ++ inner := below.listed
    simp [ends, starts]
  case kept => exact ((Finset.subset_insert _ _).trans below.kept).trans after.kept
  case unique =>
    refine List.nodup_append'.mpr ⟨below.unique, List.nodup_cons.mpr ⟨?_, after.unique⟩, ?_⟩
    · exact fun again => (after.fresh node again).1 nodeMet
    · intro a inside later
      rcases List.mem_cons.mp later with same | later
      · exact (below.fresh a inside).1 (same ▸ Finset.mem_insert_self _ _)
      · exact (after.fresh a later).1 (below.fresh a inside).2
  case fresh =>
    intro a member
    rcases split a member with inside | rfl | later
    · obtain ⟨unseen, inMet⟩ := below.fresh a inside
      exact ⟨widen a unseen, after.kept inMet⟩
    · exact ⟨unmet, nodeLater⟩
    · obtain ⟨unseen, inFinal⟩ := after.fresh a later
      exact ⟨fun early => unseen (below.kept (Finset.mem_insert_of_mem early)), inFinal⟩
  case explored =>
    intro a member
    rcases split a member with inside | rfl | later
    · exact below.explored a inside
    · exact ⟨children, found⟩
    · exact after.explored a later
  case reached =>
    intro a member
    rcases split a member with inside | rfl | later
    · exact ⟨node, List.mem_cons_self, ((below.reached a inside).below found).to_reflTransGen⟩
    · exact ⟨a, List.mem_cons_self, .refl⟩
    · exact (after.reached a later).cons
  case visited =>
    intro a member
    rcases List.mem_cons.mp member with same | later
    · exact same ▸ nodeLater
    · exact after.visited a later
  case closed =>
    intro a later unseen nodes links
    by_cases early : a ∈ met
    · by_cases same : a = node
      · subst same
        obtain rfl := Option.some.inj (found.symm.trans links)
        exact ⟨by simp, fun b member => after.kept (below.visited b member)⟩
      · obtain ⟨inside, linked⟩ := below.closed a early (by simp [same, unseen]) nodes links
        exact ⟨by simp [inside], fun b member => after.kept (linked b member)⟩
    · obtain ⟨outside, linked⟩ := after.closed a later early nodes links
      exact ⟨by simp [outside], linked⟩

/-- Every visit adds its nodes, by induction on the visit. -/
theorem Visits.adds {nodes : List α} {before after : List α × Finset α}
    (visits : Visits next nodes before after)
    : ∃ added, Adds next nodes before after added := by
  induction visits with
  | done => exact ⟨[], .done _⟩
  | again met _ ih =>
      obtain ⟨added, adds⟩ := ih
      exact ⟨added, adds.again met⟩
  | pass _ unexplored _ ih =>
      obtain ⟨added, adds⟩ := ih
      exact ⟨added, adds.pass unexplored⟩
  | explore fresh explored _ _ belowIh afterIh =>
      obtain ⟨inner, below⟩ := belowIh
      obtain ⟨outer, after⟩ := afterIh
      exact ⟨inner ++ _ :: outer, below.explore fresh explored after⟩

/-- A visit that starts with nothing met lists exactly the explored nodes it reaches: what it
met is closed under the links of explored nodes, so no reached node is missed.
-/
theorem Visits.mem_iff {nodes listed : List α} {met : Finset α}
    (visits : Visits next nodes ([], ∅) (listed, met)) (a : α)
    : a ∈ listed ↔ Reached next nodes a ∧ ∃ children, next a = some children := by
  obtain ⟨added, adds⟩ := visits.adds
  obtain rfl : listed = added := by simpa using adds.listed
  have reachedMet : ∀ b, Reached next nodes b → b ∈ met := by
    intro b reached
    obtain ⟨root, member, path⟩ := reached
    induction path with
    | refl => exact adds.visited root member
    | tail _ link ih =>
        obtain ⟨children, explored, child⟩ := link
        exact (adds.closed _ ih (by simp) children explored).2 _ child
  constructor
  · intro member
    exact ⟨adds.reached a member, adds.explored a member⟩
  · intro both
    obtain ⟨reached, children, explored⟩ := both
    exact (adds.closed a (reachedMet a reached) (by simp) children explored).1

theorem Visits.nodup {nodes listed : List α} {met : Finset α}
    (visits : Visits next nodes ([], ∅) (listed, met))
    : listed.Nodup := by
  obtain ⟨added, adds⟩ := visits.adds
  obtain rfl : listed = added := by simpa using adds.listed
  exact adds.unique

-----------------------------------------------------------------------------------------
-- Nodes come after what lies below them
-----------------------------------------------------------------------------------------

/-- One node stands before another in a list. -/
def Before (list : List α) (a b : α) : Prop := list.idxOf a < list.idxOf b

theorem Before.trans {list : List α} {a b c : α} (first : Before list a b)
    (second : Before list b c)
    : Before list a c :=
  Nat.lt_trans first second

theorem Before.of_append {front : List α} (back : List α) {a b : α} (inFront : a ∈ front)
    (notInFront : b ∉ front)
    : Before (front ++ back) a b := by
  unfold Before
  rw [List.idxOf_append_of_mem inFront, List.idxOf_append_of_notMem notInFront]
  have bound := List.idxOf_lt_length_of_mem inFront
  omega

theorem Before.append {front : List α} (back : List α) {a b : α} (inFront : b ∈ front)
    (before : Before front a b)
    : Before (front ++ back) a b := by
  have bound := List.idxOf_lt_length_of_mem inFront
  have first : a ∈ front := List.idxOf_lt_length_iff.mp (Nat.lt_trans before bound)
  unfold Before
  rw [List.idxOf_append_of_mem first, List.idxOf_append_of_mem inFront]
  exact before

/-- The nodes below which a visit is still going on: met and explored, but not listed yet. -/
def Pending (next : α → Option (List α)) (state : List α × Finset α) (a : α) : Prop :=
  a ∈ state.2 ∧ a ∉ state.1 ∧ ∃ children, next a = some children

theorem Pending.of_insert {a : α} (pending : Pending next (out, insert node seen) a)
    : a = node ∨ Pending next (out, seen) a := by
  obtain ⟨member, unlisted, explored⟩ := pending
  rcases Finset.mem_insert.mp member with same | early
  · exact .inl same
  · exact .inr ⟨early, unlisted, explored⟩

/-- What a visit below a node met and did not list was pending when that visit began. -/
theorem Adds.pending_of_after
    (below : Adds next children (out, insert node seen) (listed, met) inner)
    {a : α} (pending : Pending next (listed ++ [node], met) a)
    : Pending next (out, seen) a := by
  obtain ⟨inMet, unlisted, links, explored⟩ := pending
  have starts : listed = out ++ inner := below.listed
  simp only [starts, List.mem_append, List.mem_singleton, not_or] at unlisted
  obtain ⟨⟨notOut, notInner⟩, other⟩ := unlisted
  by_cases early : a ∈ insert node seen
  · exact ⟨(Finset.mem_insert.mp early).resolve_left other, notOut, links, explored⟩
  · exact absurd (below.closed a inMet early links explored).1 notInner

/-- A visit that meets no cycle lists, before each node, the explored nodes it leads to, except
for those that were pending when the visit began. By induction on the visit: a node that is
pending only within the visit would close a cycle.
-/
theorem Visits.before_or_pending {nodes : List α} {before after : List α × Finset α}
    (visits : Visits next nodes before after)
    (acyclic : ∀ a, Reached next nodes a → ¬ TransGen (Leads next) a a)
    (known : ∀ a ∈ before.1, a ∈ before.2)
    : ∀ a ∈ after.1, a ∉ before.1 →
        ∀ b, Leads next a b → (∃ children, next b = some children) →
          Before after.1 b a ∨ Pending next before b := by
  induction visits with
  | done => exact fun a member unlisted => absurd member unlisted
  | again _ _ ih => exact ih (fun a reached => acyclic a reached.cons) known
  | @pass node _ _ _ _ _ unexplored _ ih =>
      intro a member unlisted b link explored
      have widened := fun c listed =>
        Finset.mem_insert_of_mem (a := c) (b := node) (known c listed)
      have step := ih (fun c reached => acyclic c reached.cons) widened a member unlisted b link
        explored
      refine step.imp_right ?_
      intro pending
      rcases pending.of_insert with same | early
      · obtain ⟨children, found⟩ := explored
        rw [same, unexplored] at found
        cases found
      · exact early
  | @explore node children rest out seen listed met final fresh found belowVisit afterVisit
      belowIh afterIh =>
      obtain ⟨inner, below⟩ := belowVisit.adds
      obtain ⟨outer, later⟩ := afterVisit.adds
      have starts : listed = out ++ inner := below.listed
      have ends : final.1 = listed ++ ([node] ++ outer) := by simp [later.listed]
      have nodeReached : Reached next (node :: rest) node := ⟨node, List.mem_cons_self, .refl⟩
      have noCycle := acyclic node nodeReached
      have nodeMet : node ∈ met := below.kept (Finset.mem_insert_self _ _)
      have widened : ∀ c ∈ out, c ∈ insert node seen :=
        fun c member => Finset.mem_insert_of_mem (known c member)
      have listedMet : ∀ c ∈ listed, c ∈ met := by
        intro c member
        rw [starts] at member
        rcases List.mem_append.mp member with early | inside
        · exact below.kept (widened c early)
        · exact (below.fresh c inside).2
      have notListed : node ∉ listed := by
        intro member
        rw [starts] at member
        rcases List.mem_append.mp member with early | inside
        · exact fresh (known node early)
        · exact (below.fresh node inside).1 (Finset.mem_insert_self _ _)
      intro a member unlisted b link explored
      by_cases inListed : a ∈ listed
      · have within : a ∈ inner := by
          rw [starts] at inListed
          exact (List.mem_append.mp inListed).resolve_left unlisted
        have path : TransGen (Leads next) node a := (below.reached a within).below found
        have step := belowIh
          (fun c reached => acyclic c (nodeReached.trans (reached.below found).to_reflTransGen))
          widened a inListed unlisted b link explored
        rcases step with earlier | pending
        · rw [ends]
          exact .inl (earlier.append _ inListed)
        · rcases pending.of_insert with same | early
          · exact absurd (path.tail (same ▸ link)) noCycle
          · exact .inr early
      · by_cases same : a = node
        · subst same
          obtain ⟨links, again, child⟩ := link
          obtain rfl := Option.some.inj (found.symm.trans again)
          by_cases inB : b ∈ listed
          · rw [ends]
            exact .inl (.of_append _ inB notListed)
          · refine .inr ?_
            have other : b ≠ a := fun same => noCycle (.single ⟨children, found, same ▸ child⟩)
            refine below.pending_of_after ⟨below.visited b child, ?_, explored⟩
            simp [inB, other]
        · have step := afterIh (fun c reached => acyclic c reached.cons)
            (fun c member => by
              rcases List.mem_append.mp member with inListed | last
              · exact listedMet c inListed
              · exact List.mem_singleton.mp last ▸ nodeMet)
            a member (by simp [inListed, same]) b link explored
          exact step.imp_right below.pending_of_after

/-- Without cycles every node is listed after all explored nodes below it. -/
theorem Visits.ordered {nodes listed : List α} {met : Finset α}
    (visits : Visits next nodes ([], ∅) (listed, met))
    (acyclic : ∀ a, Reached next nodes a → ¬ TransGen (Leads next) a a) {a b : α}
    (member : a ∈ listed) (path : TransGen (Leads next) a b)
    (explored : ∃ children, next b = some children)
    : Before listed b a := by
  have direct : ∀ c ∈ listed, ∀ d, Leads next c d → (∃ children, next d = some children) →
      Before listed d c := by
    intro c inListed d link found
    have step := visits.before_or_pending acyclic (by simp) c inListed (by simp) d link found
    exact step.resolve_right (fun pending => absurd pending.1 (by simp))
  have reached := ((visits.mem_iff a).mp member).1
  induction path with
  | single link => exact direct a member _ link explored
  | tail before link ih =>
      have leads : ∃ children, next _ = some children := ⟨_, link.choose_spec.1⟩
      have listedMiddle := (visits.mem_iff _).mpr ⟨reached.trans before.to_reflTransGen, leads⟩
      exact (direct _ listedMiddle _ link explored).trans (ih leads)

-----------------------------------------------------------------------------------------
-- A visit with a bound on its depth
-----------------------------------------------------------------------------------------

/-- The visit, cut off below the given depth. -/
def visit (next : α → Option (List α))
    : Nat → List α → List α × Finset α → List α × Finset α
  | 0, _, state => state
  | depth + 1, nodes, state =>
      nodes.foldl
        (fun state node =>
          if node ∈ state.2 then
            state
          else
            match next node with
            | none => (state.1, insert node state.2)
            | some children =>
                let below := visit next depth children (state.1, insert node state.2)
                (below.1 ++ [node], below.2))
        state

/-- A depth above the number of explored nodes that are left cuts nothing off: each level
meets one of them.
-/
theorem visits_visit {explorable : Finset α}
    (within : ∀ a children, next a = some children → a ∈ explorable) (depth : Nat)
    (nodes : List α) (state : List α × Finset α)
    (enough : (explorable \ state.2).card < depth)
    : Visits next nodes state (visit next depth nodes state) := by
  induction depth generalizing nodes state with
  | zero => omega
  | succ depth ih =>
      unfold visit
      induction nodes generalizing state with
      | nil => exact .done
      | cons node rest restIh =>
          obtain ⟨out, seen⟩ := state
          have fewer
              : ∀ grown : Finset α, seen ⊆ grown → (explorable \ grown).card < depth + 1 := by
            intro grown larger
            have shrunk := Finset.card_le_card
              (Finset.sdiff_subset_sdiff (le_refl explorable) larger)
            exact Nat.lt_of_le_of_lt shrunk enough
          rw [List.foldl_cons]
          simp only
          by_cases known : node ∈ seen
          · rw [if_pos known]
            exact .again known (restIh (out, seen) enough)
          · rw [if_neg known]
            cases found : next node with
            | none => exact .pass known found (restIh _ (fewer _ (Finset.subset_insert _ _)))
            | some children =>
                have left : (explorable \ insert node seen).card < depth := by
                  have dropped : (explorable \ insert node seen) ⊂ explorable \ seen := by
                    refine Finset.ssubset_iff_of_subset ?_ |>.mpr ⟨node, ?_, by simp⟩
                    · exact Finset.sdiff_subset_sdiff (le_refl _) (Finset.subset_insert _ _)
                    · exact Finset.mem_sdiff.mpr ⟨within node children found, known⟩
                  have smaller := Finset.card_lt_card dropped
                  simp only at enough
                  omega
                have below := ih children (out, insert node seen) left
                obtain ⟨_, adds⟩ := below.adds
                have grown := (Finset.subset_insert node seen).trans adds.kept
                exact .explore known found below (restIh _ (fewer _ grown))

end PostOrder
