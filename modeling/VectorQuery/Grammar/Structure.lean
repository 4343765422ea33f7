import VectorQuery.Command
import VectorQuery.Grammar.Clause
import VectorQuery.Grammar.Field

/-! Statements about the structure of a store: its databases, collections, aliases,
partitions and indexes. Each rule starts behind the verb of its statement. -/
namespace VectorQuery

namespace Grammar

def createAlias : Rule CollectionCommand := do
  let name ← identifier
  keyword .for
  return .createAlias name (← identifier)

def dropAlias : Rule CollectionCommand := do
  let name ← identifier
  keyword .for
  return .dropAlias name (← identifier)

def createCollection (levels : Nat) : Rule CreateCollection := do
  let name ← identifier
  let fields ← fields
  return { name, fields, options := ← options levels }

def createPartition (levels : Nat) : Rule PartitionCommand := do
  let partition ← identifier
  keyword .on
  let collection ← identifier
  return .create partition collection (← options levels)

def dropPartition : Rule PartitionCommand := do
  let partition ← identifier
  keyword .on
  return .drop partition (← identifier)

def createIndex (levels : Nat) : Rule IndexCommand := do
  let index ← identifier
  keyword .on
  let collection ← identifier
  let field ← bracketed identifier
  let options ← announced .with (mapping levels)
  return .create index collection field (options.map IndexOptions.ofMapping)

def dropIndex : Rule IndexCommand := do
  let index ← identifier
  keyword .on
  return .drop index (← identifier)

def create (levels : Nat) : Rule Command := do
  if ← accept (.keyword .database) then return .database (.create (← identifier))
  else if ← accept (.keyword .collection) then
    return .collection (.create (← createCollection levels))
  else if ← accept (.keyword .alias) then return .collection (← createAlias)
  else if ← accept (.keyword .partition) then return .partition (← createPartition levels)
  else if ← accept (.keyword .index) then return .index (← createIndex levels)
  else refuse

def drop : Rule Command := do
  if ← accept (.keyword .database) then return .database (.drop (← identifier))
  else if ← accept (.keyword .collection) then return .collection (.drop (← identifier))
  else if ← accept (.keyword .alias) then return .collection (← dropAlias)
  else if ← accept (.keyword .partition) then return .partition (← dropPartition)
  else if ← accept (.keyword .index) then return .index (← dropIndex)
  else refuse

def showAll : Rule Command := do
  if ← accept (.keyword .databases) then return .database .showAll
  else if ← accept (.keyword .collections) then return .collection .showAll
  else if ← accept (.keyword .aliases) then
    keyword .for
    return .collection (.showAliases (← identifier))
  else if ← accept (.keyword .partitions) then
    keyword .on
    return .partition (.showAll (← identifier))
  else if ← accept (.keyword .indexes) then
    keyword .on
    return .index (.showAll (← identifier))
  else refuse

def load (levels : Nat) : Rule Command := do
  if ← accept (.keyword .collection) then
    let name ← identifier
    return .collection (.load name (← options levels))
  else if ← accept (.keyword .partition) then
    let partitions ← partitions
    keyword .on
    let collection ← identifier
    return .partition (.load collection partitions (← options levels))
  else refuse

def release : Rule Command := do
  if ← accept (.keyword .collection) then return .collection (.release (← identifier))
  else if ← accept (.keyword .partition) then
    let partitions ← partitions
    keyword .on
    return .partition (.release (← identifier) partitions)
  else refuse

def rename : Rule Command := do
  keyword .collection
  let old ← identifier
  keyword .to
  let new ← identifier
  keyword .in
  return .collection (.rename old new (← identifier))

def compact : Rule Command := do
  keyword .collection
  return .collection (.compact (← identifier))

end Grammar

end VectorQuery
