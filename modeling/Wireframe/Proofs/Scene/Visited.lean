import Wireframe.Scene.Walk

/-!
# The nodes that a walk enters

The walk through a node enters it, walks its children in turn, and leaves it if it can have a body
of several lines (`Node.walk_eq`). What holds of a node and passes from every node to its children
holds of all nodes that the walk enters (`Node.forall_visited`).
-/

namespace Wireframe

namespace Node

/-- The walk through a node. -/
def walk : Node → List Step
  | scene s => s.walk
  | page p => p.walk
  | blocks g => g.walk
  | alignment a => a.walk
  | block b => b.walk
  | elements g => g.walk
  | direction d => d.walk
  | item i => i.walk
  | list l => l.walk
  | value v => v.walk
  | literal l => l.walk
  | number c => c.walk
  | comment c => c.walk

/-- The end of the walk through a node: it leaves those that can have a body of several lines. -/
def closing (n : Node) : List Step :=
  match n.rule with
  | .scene | .page | .blocks | .block | .elements | .list => [.leave n]
  | _ => []

end Node

theorem Element.walk_node : (fun e : Element => e.node.walk) = Element.walk := by
  funext e
  cases e <;> rfl

namespace Node

theorem flatMap_walk_contentChildren (content : ItemContent) :
    (contentChildren content).flatMap walk = Item.walkContent content := by
  rcases content with ⟨_, _, _ | v⟩ | l <;> rfl

/-- A walk enters a node, walks its children one after the other, and comes to its end. -/
theorem walk_eq (n : Node) : n.walk = .enter n :: (n.children.flatMap walk ++ n.closing) := by
  cases n with
  | elements g =>
    simp only [children, List.flatMap_append, List.flatMap_map, Element.walk_node]
    rfl
  | item i =>
    rw [children, flatMap_walk_contentChildren]
    exact congrArg _ (List.append_nil _).symm
  | direction d | alignment a =>
    simp only [children, closing, rule, List.flatMap_append, List.flatMap_map, List.append_nil,
      List.flatMap_singleton]
    rfl
  | _ =>
    simp only [children, List.flatMap_append, List.flatMap_cons, List.flatMap_map]
    rfl

theorem enter_notMem_closing (m n : Node) : .enter m ∉ n.closing := by
  rw [closing]
  split <;> simp

/-- What holds of a node and passes on from every node to its children holds of all
    that the walk enters. -/
theorem forall_visited {p : Node → Prop} {n : Node} (hn : p n)
    (hchild : ∀ m, p m → ∀ c ∈ m.children, p c) : ∀ m, .enter m ∈ n.walk → p m := by
  -- the walk through a child is a part of the walk, without its first step
  induction hlength : n.walk.length using Nat.strongRecOn generalizing n with
  | ind length ih =>
    intro m hm
    rw [walk_eq] at hm hlength
    rcases List.mem_cons.1 hm with heq | hm
    · cases heq
      exact hn
    · obtain ⟨c, hc, hm⟩ := List.mem_flatMap.1
        ((List.mem_append.1 hm).resolve_right (enter_notMem_closing m n))
      have hle : c.walk.length ≤ (n.children.flatMap walk).length :=
        (List.sublist_flatten_of_mem (List.mem_map_of_mem hc)).length_le
      refine ih c.walk.length ?_ (hchild n hn c hc) rfl m hm
      rw [List.length_cons, List.length_append] at hlength
      omega

end Node

end Wireframe
