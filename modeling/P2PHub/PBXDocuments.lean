import P2PHub.InsertionOrderedMap

/-!
# PBX documents

The object graph that plugins store, after `sdk/src/pbx.ts`: a flat dictionary
of objects that refer to each other by identifier, and a root.  What an object
holds besides its identifier is left to the plugin.
-/

namespace P2PHub

open OrderedMap

structure PBXDocument (Object : Type) where
  root : String
  objects : OrderedMap String Object

namespace PBXDocument

variable {Object : Type}

def createDocument (rootId : String) (root : Object) : PBXDocument Object where
  root := rootId
  objects := empty.set rootId root

/-- The object under an identifier is replaced, or it is a new one. -/
def put (document : PBXDocument Object) (id : String) (object : Object) : PBXDocument Object :=
  { document with objects := document.objects.set id object }

def addObject (document : PBXDocument Object) (id : String) (object : Object) :
    PBXDocument Object :=
  document.put id object

def resolveRef (document : PBXDocument Object) (ref : String) : Option Object :=
  document.objects.get ref

def rootObject (document : PBXDocument Object) : Option Object :=
  document.resolveRef document.root

def deleteObject (document : PBXDocument Object) (id : String) : PBXDocument Object :=
  { document with objects := document.objects.delete id }

def modifyRoot (document : PBXDocument Object) (change : Object → Object) : PBXDocument Object :=
  match document.rootObject with
  | some root => document.put document.root (change root)
  | none => document

theorem resolveRef_put (document : PBXDocument Object) (id : String) (object : Object)
    (ref : String) : (document.put id object).resolveRef ref =
      if ref = id then some object else document.resolveRef ref :=
  get_set document.objects id ref object

theorem resolveRef_deleteObject (document : PBXDocument Object) (id ref : String) :
    (document.deleteObject id).resolveRef ref =
      if ref = id then none else document.resolveRef ref :=
  get_delete document.objects id ref

theorem resolveRef_createDocument (rootId : String) (root : Object) (ref : String) :
    (createDocument rootId root).resolveRef ref = if ref = rootId then some root else none := by
  rw [resolveRef, createDocument, get_set, get_empty]

@[simp] theorem root_put (document : PBXDocument Object) (id : String) (object : Object) :
    (document.put id object).root = document.root :=
  rfl

@[simp] theorem root_deleteObject (document : PBXDocument Object) (id : String) :
    (document.deleteObject id).root = document.root :=
  rfl

@[simp] theorem root_modifyRoot (document : PBXDocument Object) (change : Object → Object) :
    (document.modifyRoot change).root = document.root := by
  unfold modifyRoot
  split <;> rfl

theorem resolveRef_modifyRoot (document : PBXDocument Object) (change : Object → Object)
    (ref : String) : (document.modifyRoot change).resolveRef ref =
      if ref = document.root then document.rootObject.map change else document.resolveRef ref := by
  unfold modifyRoot
  split
  · next root found => rw [resolveRef_put, found, Option.map_some]
  · next missing =>
      split
      · next here =>
          rw [missing, Option.map_none, here]
          exact missing
      · rfl

end PBXDocument

end P2PHub
