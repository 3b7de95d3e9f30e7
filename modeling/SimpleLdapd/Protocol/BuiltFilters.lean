import SimpleLdapd.Protocol.FilterText

/-!
# The filters the program can hold (`protocol/filter.hpp`)

A `SearchFilter` has no public field to write: its values come from `parse`, the
three named constructors and the decoder. Each of them writes on the wire a tree
that the decoder takes back.
-/

namespace SimpleLdapd

open Dn Ber

namespace Filter

theorem item_node_valid (name value : Bytes) : ValidTree (itemNode name value) := by
  unfold itemNode
  split
  · exact .present name
  · split
    · exact .equality name value
    · exact .substring name _ _ _

theorem list_node_valid {operator : Byte} {type : FilterType}
    (isList : listType operator = some type) {children : List FilterNode}
    (each : ∀ child ∈ children, ValidTree child) :
    ValidTree { type := type, children := children } := by
  unfold listType at isList
  split at isList
  · cases isList
    exact .and children each
  · split at isList
    · cases isList
      exact .or children each
    · cases isList

/-- The parser builds only trees of the codec. -/
theorem parsed_tree_valid {fuel : Nat} {source after : Bytes} {node : FilterNode}
    (parsed : parseFilter fuel source = some (node, after)) : ValidTree node := by
  have rule := parse_rule (fun _ node _ => ValidTree node)
    (fun _ children _ => ∀ child ∈ children, ValidTree child)
  refine (rule ?_ ?_ ?_ ?_ ?_ fuel).1 source node after parsed
  · intro source operator operands type child rest inner after _ isList listed _
    exact list_node_valid isList listed
  · intro source operands child inner after _ negated _
    exact .not child negated
  · intro source operator operands node inner after _ _ _ read _
    rcases parse_item_iff.mp read with ⟨name, value, _, _, _, _, _, shape⟩
    rw [shape]
    exact item_node_valid _ _
  · intro source _ child member
    cases member
  · intro source child rest inner after _ first later other member
    rcases List.mem_cons.mp member with here | there
    · rw [here]
      exact first
    · exact later other there

theorem assigned_parts_valid (components : List SubstringPart) {node : FilterNode} {name : Bytes}
    (shape : ∃ initial any final, node = { type := .substring, attributeName := name
                                           initial := initial, any := any, final := final }) :
    ValidTree (components.foldl assignPart node) := by
  induction components generalizing node with
  | nil =>
      rcases shape with ⟨initial, any, final, same⟩
      rw [same]
      exact .substring name initial any final
  | cons component rest reached =>
      rcases shape with ⟨initial, any, final, same⟩
      apply reached
      rw [same]
      cases component with
      | initial value => exact ⟨value, any, final, rfl⟩
      | any value => exact ⟨initial, any ++ [value], final, rfl⟩
      | final value => exact ⟨initial, any, value, rfl⟩
      | unknown => exact ⟨initial, any, final, rfl⟩

/-- The decoder builds only trees of the codec. -/
theorem decoded_tree_valid (fuel : Nat) : Gives (decodeNodeWith fuel) ValidTree := by
  induction fuel with
  | zero => exact gives_refuse _
  | succ fuel reached =>
      rw [decodeNodeWith]
      refine gives_after fun tag => ?_
      split
      · refine gives_after fun inner => ?_
        have nodes : Gives (do
            let children ← Read.whileMore (decodeNodeWith fuel)
            Read.requireOk
            pure children) fun children => ∀ child ∈ children, ValidTree child :=
          gives_bind (gives_while reached) fun _ each => gives_after fun _ => gives_pure each
        refine gives_bind (gives_within inner nodes) fun children each => gives_pure ?_
        split
        · exact .and children each
        · exact .or children each
      · split
        · refine gives_after fun inner => ?_
          have node : Gives (do
              let child ← decodeNodeWith fuel
              Read.requireOk
              pure child) ValidTree :=
            gives_bind reached fun _ only => gives_after fun _ => gives_pure only
          exact gives_bind (gives_within inner node) fun child only =>
            gives_pure (.not child only)
        · split
          · exact gives_after fun name => gives_pure (.present name)
          · split
            · exact gives_after fun inner => gives_within inner (gives_after fun name =>
                gives_after fun value => gives_after fun _ => gives_pure (.equality name value))
            · split
              · exact gives_after fun inner => gives_within inner (gives_after fun name =>
                  gives_after fun _ => gives_after fun components => gives_after fun _ =>
                    gives_pure (assigned_parts_valid components ⟨[], [], [], rfl⟩))
              · exact gives_refuse _

theorem decoded_node_valid : Gives decodeNode ValidTree :=
  fun reader => decoded_tree_valid (reader.data.length + 1) reader

end Filter

namespace SearchFilter

/-- The filters that the functions of the class make. -/
inductive Built : SearchFilter → Prop where
  | unset : Built {}
  | parse (source : Bytes) : Built (Filter.parse source)
  | present (name : Bytes) : Built (Filter.present name)
  | equality (name value : Bytes) : Built (Filter.equality name value)
  | all : Built Filter.all
  | decoded (filter : SearchFilter) (reader after : BerReader)
      (taken : decodeBer.run reader = (some filter, after)) : Built filter

theorem encode_invalid {filter : SearchFilter} (invalid : filter.valid = false) :
    filter.encodeBer =
      Filter.encodeNode { type := .present, attributeName := SimpleLdapd.text "objectClass" } := by
  rw [encodeBer, if_neg (by simp [invalid])]

/-- Such a filter is written as a tree that the decoder takes back. -/
theorem Built.written {filter : SearchFilter} (built : Built filter) :
    ∃ tree, Filter.ValidTree tree ∧ filter.encodeBer = Filter.encodeNode tree := by
  have placeholder := Filter.ValidTree.present (SimpleLdapd.text "objectClass")
  cases built with
  | unset => exact ⟨_, placeholder, rfl⟩
  | present name => exact ⟨_, .present name, rfl⟩
  | equality name value => exact ⟨_, .equality name value, rfl⟩
  | all => exact ⟨_, placeholder, rfl⟩
  | parse source =>
      cases valid : (Filter.parse source).valid with
      | false => exact ⟨_, placeholder, encode_invalid valid⟩
      | true =>
          rcases Filter.parse_valid_iff.mp ⟨valid, rfl⟩ with ⟨after, parses, -⟩
          exact ⟨_, Filter.parsed_tree_valid (parses _ le_rfl), if_pos valid⟩
  | decoded _ reader after taken =>
      rcases Read.bind_some taken with ⟨root, middle, run, checked⟩
      rcases Read.bind_some checked with ⟨_, _, _, same⟩
      cases same
      exact ⟨root, Filter.decoded_node_valid _ _ _ run, rfl⟩

end SearchFilter

end SimpleLdapd
