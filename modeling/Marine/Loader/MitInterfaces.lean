import Marine.Ast
import Marine.Errors
import Marine.Lib.Maps

/-!
# MITInterfaces

The interface types section as the runtime reads it
(`crates/it-interfaces/src/mit_interfaces.rs`): the lists of the section and
the multimaps between types, adapters, imports and exports.
-/

namespace Marine.Loader

structure MITInterfaces where
  types : List AstType
  imports : List Import
  coreTypeToImports : AList fun _ : Nat => List (String × String)
  adapters : AList fun _ : Nat => List Instruction
  exports : List Export
  coreTypeToExports : AList fun _ : Nat => List String
  adapterTypeToCore : AList fun _ : Nat => List Nat
  coreTypeToAdapter : AList fun _ : Nat => List Nat

namespace MITInterfaces

def new (interfaces : Interfaces) : MITInterfaces where
  types := interfaces.types
  imports := interfaces.imports
  coreTypeToImports := Maps.collectAll <|
    interfaces.imports.map fun i => (i.functionType, (i.nameSpace, i.name))
  adapters := Maps.collect <|
    interfaces.adapters.map fun a => (a.functionType, a.instructions)
  exports := interfaces.exports
  coreTypeToExports := Maps.collectAll <|
    interfaces.exports.map fun e => (e.functionType, e.name)
  adapterTypeToCore := Maps.collectAll <|
    interfaces.implementations.map fun i => (i.adapterFunctionType, i.coreFunctionType)
  coreTypeToAdapter := Maps.collectAll <|
    interfaces.implementations.map fun i => (i.coreFunctionType, i.adapterFunctionType)

def typeByIdx (mit : MITInterfaces) (idx : Nat) : Option AstType := mit.types[idx]?

def typeByIdxR (mit : MITInterfaces) (idx : Nat) : Except MITInterfacesError AstType :=
  match mit.types[idx]? with
  | some ty => .ok ty
  | none => .error (.noSuchType idx)

def adapterByType (mit : MITInterfaces) (adapterType : Nat) : Option (List Instruction) :=
  mit.adapters.lookup adapterType

def adapterByTypeR (mit : MITInterfaces) (adapterType : Nat) :
    Except MITInterfacesError (List Instruction) :=
  match mit.adapters.lookup adapterType with
  | some instructions => .ok instructions
  | none => .error (.noSuchAdapter adapterType)

def importsByType (mit : MITInterfaces) (importType : Nat) : Option (List (String × String)) :=
  mit.coreTypeToImports.lookup importType

def exportsByType (mit : MITInterfaces) (exportType : Nat) : Option (List String) :=
  mit.coreTypeToExports.lookup exportType

/-- The iterator of a multimap gives each key with the first of its values, in
the order of the table.  The table hashes its keys: `reordered` gives the others. -/
def implementations (mit : MITInterfaces) : List (Nat × Nat) :=
  mit.adapterTypeToCore.entries.filterMap fun e => e.2.head?.map fun core => (e.1, core)

def adapterTypesByCoreType (mit : MITInterfaces) (coreFunctionType : Nat) : Option (List Nat) :=
  mit.coreTypeToAdapter.lookup coreFunctionType

/-- The section with the table of its implementations in another order. -/
def reordered (mit : MITInterfaces) (implementations : AList fun _ : Nat => List Nat) :
    MITInterfaces :=
  { mit with adapterTypeToCore := implementations }

theorem implementations_reordered {mit : MITInterfaces}
    {implementations : AList fun _ : Nat => List Nat}
    (hperm : implementations.entries.Perm mit.adapterTypeToCore.entries) :
    (mit.reordered implementations).implementations.Perm mit.implementations :=
  hperm.filterMap _

/-- Each implementation comes first in some order of the table. -/
theorem exists_reordered_first {mit : MITInterfaces} {i : Nat × Nat}
    (h : i ∈ mit.implementations) :
    ∃ implementations : AList fun _ : Nat => List Nat,
      implementations.entries.Perm mit.adapterTypeToCore.entries ∧
      ∃ rest, (mit.reordered implementations).implementations = i :: rest := by
  obtain ⟨e, he, hi⟩ := List.mem_filterMap.mp h
  obtain ⟨core, hcore, rfl⟩ := Option.map_eq_some_iff.mp hi
  have hperm : (e :: mit.adapterTypeToCore.entries.erase e).Perm
      mit.adapterTypeToCore.entries := (List.perm_cons_erase he).symm
  have hnodup : (e :: mit.adapterTypeToCore.entries.erase e).NodupKeys :=
    (List.perm_nodupKeys hperm).mpr mit.adapterTypeToCore.nodupKeys
  refine ⟨⟨_, hnodup⟩, hperm, _, List.filterMap_cons_some ?_⟩
  rw [hcore]
  rfl

end MITInterfaces

end Marine.Loader
