import Mathlib.Data.List.Basic
import WasmWorkshop.ModuleField
import WasmWorkshop.Proofs.Trail

/-!
# The forms of a module

Functions, memories and exports are read off the header tokens of a tree, wherever in the tree they
stand and whatever its marks are (`Node.forms`). A function is declared by its own header or by an
import; both name it in the same way. What an export is of is a token as well, and it is the token
that stands for what was declared (`ModuleForm.entity?`).
-/

set_option autoImplicit false

namespace WasmWorkshop

/-- A form that is there for the module as a whole. -/
inductive ModuleForm where
  /-- A function, of this module or imported. -/
  | function (symbol : String)
  | memory (symbol size : String)
  | exported (name entity : String)
  deriving DecidableEq

namespace ModuleForm

/-- How an export calls what the form declares. -/
def entity? : ModuleForm → Option String
  | .function symbol => some ("(func " ++ symbol ++ ")")
  | .memory symbol _ => some ("(memory " ++ symbol ++ ")")
  | .exported _ _ => none

/-- The name that the form exports something under. -/
def exportName? : ModuleForm → Option String
  | .exported name _ => some name
  | _ => none

/-- Whether the form is a memory. -/
def isMemory : ModuleForm → Bool
  | .memory _ _ => true
  | _ => false

/-- The symbol of a function. -/
def symbol? : ModuleForm → Option String
  | .function symbol => some symbol
  | _ => none

/-- The export of a function under its own name. -/
def ofFunction (name : String) : ModuleForm :=
  .exported (quoted name) ("(func " ++ sigil name ++ ")")

/-- The export of the memory. -/
def ofMemory : ModuleForm := .exported (quoted "memory") ("(memory " ++ sigil "memory" ++ ")")

end ModuleForm

/-- The symbol in the type of an imported function: what stands before the parameters, or before the
closing parenthesis if there are none. -/
def importedSymbol? (token : String) : Option String :=
  ("(func ".toList.isPrefixOf? token.toList).map fun rest =>
    String.ofList (if ' ' ∈ rest then rest.takeWhile (· ≠ ' ') else rest.dropLast)

/-- The form with the given header tokens, if it is one of these. -/
def moduleForm? : List String → Option ModuleForm
  | keyword :: first :: rest =>
    if keyword = "func" then some (.function first)
    else if keyword = "import" then (rest.getLast?.bind importedSymbol?).map .function
    else if keyword = "memory" then rest.head?.map (.memory first)
    else if keyword = "export" then rest.head?.map (.exported first)
    else none
  | _ => none

mutual

/-- The forms of a tree in pre-order. -/
def Node.forms : Node → List ModuleForm
  | .leaf _ _ => []
  | .form header _ => (moduleForm? header).toList
  | .group header children _ => (moduleForm? header).toList ++ Node.formsAll children
  | .fragment children _ => Node.formsAll children

/-- The forms of a list of trees in pre-order. -/
def Node.formsAll : List Node → List ModuleForm
  | [] => []
  | node :: rest => node.forms ++ Node.formsAll rest

end

namespace Node

/-- The form of a node itself comes before those of its children. -/
theorem forms_eq (node : Node) :
    node.forms = (node.header?.bind moduleForm?).toList ++ formsAll node.children := by
  cases node with
  | leaf text marks => rfl
  | form header marks => exact (List.append_nil _).symm
  | group header children marks => rfl
  | fragment children marks => rfl

/-- A node that is no form of the module itself has the forms of its children. -/
theorem forms_of_noForm {node : Node} (noForm : node.header?.bind moduleForm? = none) :
    node.forms = formsAll node.children := by
  rw [forms_eq, noForm]
  rfl

theorem formsAll_singleton (node : Node) : formsAll [node] = node.forms := List.append_nil _

theorem formsAll_append (first second : List Node) :
    formsAll (first ++ second) = formsAll first ++ formsAll second := by
  induction first with
  | nil => rfl
  | cons node rest ih => rw [List.cons_append, formsAll, formsAll, ih, List.append_assoc]

/-! ## Instructions and lists of nodes -/

theorem forms_convert (source target : ValueType) (operand : Node) :
    (convert source target operand).forms = operand.forms := by
  rw [convert]
  cases source.conversion? target with
  | none => rfl
  | some instruction =>
      rw [forms_of_noForm rfl]
      exact formsAll_singleton operand

theorem forms_ifThen (result : Option ValueType) (condition : Node) (consequent : List Node)
    (alternative : Option (List Node)) :
    (ifThen result condition consequent alternative).forms =
      condition.forms ++ (formsAll consequent ++ formsAll (alternative.getD [])) := by
  have noForm : (ifThen result condition consequent alternative).header?.bind moduleForm? =
      none := by
    cases result <;> rfl
  rw [forms_of_noForm noForm]
  change condition.forms ++ (formsAll consequent ++ _) = _
  cases alternative with
  | none => rfl
  | some nodes =>
      have other : (ofGroup ["else"] nodes).forms = formsAll nodes := forms_of_noForm rfl
      rw [formsAll_singleton, other]
      rfl

theorem forms_loopWhile (label : String) (condition : Node) (body : List Node) :
    (loopWhile label condition body).forms = formsAll body ++ condition.forms := by
  rw [forms_of_noForm rfl]
  have jump : (breakIf label condition).forms = condition.forms := by
    rw [forms_of_noForm rfl]
    exact formsAll_singleton condition
  change formsAll (body ++ [breakIf label condition]) = _
  rw [formsAll_append, formsAll_singleton, jump]

theorem forms_elements (offset : Node) (names : List String) :
    (elements offset names).forms = offset.forms := by
  have lines : formsAll (names.map elementLine) = [] := by
    induction names with
    | nil => rfl
    | cons name names ih => exact ih
  rw [forms_of_noForm rfl]
  change offset.forms ++ formsAll (names.map elementLine) = _
  rw [lines, List.append_nil]

/-! ## Fields -/

/-- **The symbol of an imported function is read back** from the type that the import states. -/
theorem importedSymbol?_importToken {name : String} (noSpace : ' ' ∉ name.toList)
    (params : List ValueType) : importedSymbol? (importToken name params) = some (sigil name) := by
  have spaceless : ' ' ∉ (sigil name).toList := by
    simpa [sigil] using noSpace
  cases params with
  | nil =>
      have split : "(func ".toList.isPrefixOf? (importToken name []).toList =
          some ((sigil name).toList ++ [')']) :=
        List.isPrefixOf?_eq_some_iff_append_eq.mpr (by simp [importToken])
      have closed : ' ' ∉ (sigil name).toList ++ [')'] := by
        simpa using spaceless
      rw [importedSymbol?, split, Option.map_some, if_neg closed, List.dropLast_concat,
        String.ofList_toList]
  | cons first others =>
      obtain ⟨more, shape⟩ : ∃ more, (importToken name (first :: others)).toList =
          "(func ".toList ++ ((sigil name).toList ++ ' ' :: more) := by
        refine ⟨("(param " ++ " ".intercalate ((first :: others).map (·.mnemonic)) ++ "))").toList,
          ?_⟩
        simp [importToken]
      have split : "(func ".toList.isPrefixOf? (importToken name (first :: others)).toList =
          some ((sigil name).toList ++ ' ' :: more) :=
        List.isPrefixOf?_eq_some_iff_append_eq.mpr shape.symm
      have whole : ((sigil name).toList ++ ' ' :: more).takeWhile (· ≠ ' ') =
          (sigil name).toList := by
        rw [List.takeWhile_append_of_pos]
        · simp
        · intro character member
          have different : character ≠ ' ' := fun same => spaceless (same ▸ member)
          simpa using different
      rw [importedSymbol?, split, Option.map_some, if_pos (by simp), whole, String.ofList_toList]

theorem forms_importFunction (library field : String) {name : String}
    (noSpace : ' ' ∉ name.toList) (params : List ValueType) :
    (importFunction library field name params).forms = [.function (sigil name)] := by
  have symbol := importedSymbol?_importToken noSpace params
  change (Option.map ModuleForm.function (importedSymbol? (importToken name params))).toList = _
  rw [symbol]
  rfl

theorem forms_function (prototype : Prototype) (body : List Node) :
    (function prototype body).forms =
      .function (sigil prototype.name) :: (formsAll body ++
        if prototype.exported then [.ofFunction prototype.name] else []) := by
  cases exported : prototype.exported <;>
    simp [function, exported, ofNodes, forms, formsAll, functionHeader, moduleForm?,
      functionExport, ofHeader, ModuleForm.ofFunction]

theorem forms_memory (literals : List Node) (size : Nat) :
    (memory literals size).forms =
      formsAll literals ++ [.memory (sigil "memory") (toString size), .ofMemory] := by
  change formsAll (literals ++ _) = _
  rw [formsAll_append]
  rfl

end Node

end WasmWorkshop
