import PropertyDelete.Proofs.Delete.Frame
import PropertyDelete.Proofs.Object.Edits
import PropertyDelete.Proofs.Object.Order

/-!
The property table of an object over its whole life: it is made, plain or as an array, and then
edited by the operations of the engine and deleted from in any way. Each of these comes to one
operation on the table or none (`ObjectStep.table_step`), so the tables of a life are a history
that starts empty, and the order and the map stay in step (`table_in_step`).
-/
namespace PropertyDelete

/-- How an object is made. -/
inductive Creation where
  | plain
  | array (values : List Value)

def Creation.object : Creation → NativeObject
  | plain => {}
  | array values => .array values

/-- What is done to an object: an operation of the engine, or a delete in any way. -/
inductive ObjectStep where
  | edit (e : NativeEdit)
  | delete (w : Delete.Way)

def ObjectStep.apply (o : ObjectRef) (s : Store) : ObjectStep → Store
  | edit e => s.setNative o (e.apply (s.heap.native o))
  | delete w => ((w.run (.object o)).run s).2

namespace Store

/-- A store after some steps on one of its objects, first one first. -/
def afterSteps (s : Store) (o : ObjectRef) (steps : List ObjectStep) : Store :=
  steps.foldl (ObjectStep.apply o) s

/-- An object after the first so many of some steps on it. -/
def objectAt (s : Store) (o : ObjectRef) (steps : List ObjectStep) (i : Nat) : NativeObject :=
  (s.afterSteps o (steps.take i)).heap.native o

def tableAt (s : Store) (o : ObjectRef) (steps : List ObjectStep) (i : Nat) : PropertyTable :=
  (s.objectAt o steps i).table

end Store

open PropertyTable (Step)

theorem NativeObject.delete_table_step (obj : NativeObject) (key : Key) (strict : Bool) :
    Step obj.table (obj.delete key strict).2.table := by
  rcases obj.delete_object_cases key strict with h | h | ⟨i, -, h⟩ <;> rw [h]
  · exact .none
  · exact .erase key.storageText
  · exact .none

theorem NativeEdit.table_step (e : NativeEdit) (obj : NativeObject) :
    Step obj.table (e.apply obj).table := by
  cases e with
  | insert key d => exact .insert key d
  | erase key => exact .erase key
  | punchHole i => exact .none
  | delete key strict => exact obj.delete_table_step key strict

/-- A write of an object is a step of its table if what is written is one. -/
theorem Heap.table_step_setNative {h : Heap} {o : ObjectRef} {obj : NativeObject}
    (hstep : Step (h.native o).table obj.table) :
    Step (h.native o).table ((h.setNative o obj).native o).table := by
  rcases h.native_setNative o obj with hread | hread <;> rw [hread]
  · exact hstep
  · exact .none

/-- Whatever is done to an object is one operation on its table, or none. -/
theorem ObjectStep.table_step (a : ObjectStep) (o : ObjectRef) (s : Store) :
    Step (s.heap.native o).table ((a.apply o s).heap.native o).table := by
  cases a with
  | edit e => exact Heap.table_step_setNative (e.table_step _)
  | delete w =>
    have hnative : ∀ f, Value.object o ≠ .foreign f := fun f => nofun
    obtain hkeep | ⟨_, strict, ⟨⟩, hwrite⟩ := w.run_writes hnative s
    · rw [apply, hkeep]
      exact .none
    · rw [apply, hwrite]
      exact Heap.table_step_setNative (NativeObject.delete_table_step _ _ strict)

namespace Store

variable {s : Store} {o : ObjectRef} {steps : List ObjectStep}

theorem tableAt_step {i : Nat} (hi : i < steps.length) :
    Step (s.tableAt o steps i) (s.tableAt o steps (i + 1)) := by
  unfold tableAt objectAt afterSteps
  rw [List.take_succ_eq_append_getElem hi, List.foldl_append]
  exact ObjectStep.table_step steps[i] o _

theorem tableAt_zero (s : Store) (c : Creation) (steps : List ObjectStep) :
    (s.allocate c.object).2.tableAt (s.allocate c.object).1 steps 0 = {} := by
  show ((s.allocate c.object).2.heap.native (s.allocate c.object).1).table = {}
  rw [native_allocate]
  cases c <;> rfl

end Store

/-- At every time of its life the table of an object has an order without duplicates, which lists
the names that the map has, as many as there are, by the time at which each of them came in last.
To insert a property that is there replaces its descriptor and moves nothing, and one that is
removed and inserted again goes to the end. -/
theorem table_in_step (s : Store) (c : Creation) (steps : List ObjectStep) :
    let o := (s.allocate c.object).1
    let n := steps.length
    let table := (s.allocate c.object).2.tableAt o steps
    let obj := (s.allocate c.object).2.objectAt o steps n
    obj.table.order.Nodup ∧
      (∀ name, name ∈ obj.table.order ↔ (obj.table.find? name).isSome = true) ∧
      obj.table.order.length = obj.table.slots.size ∧
      (∀ name ∈ obj.table.order, ∃! i, PropertyTable.Arrived table n name i) ∧
      obj.table.order.Pairwise (PropertyTable.Earlier table n) ∧
      (∀ name d, (obj.table.find? name).isSome = true →
        (obj.insert name d).table.order = obj.table.order ∧
          (obj.insert name d).table.find? name = some d ∧
          ∀ other, other ≠ name →
            (obj.insert name d).table.find? other = obj.table.find? other) ∧
      ∀ name d, ((obj.erase name).insert name d).table.order =
        obj.table.order.filter (· ≠ name) ++ [name] := by
  intro o n table obj
  have hlisted : PropertyTable.Listed table n :=
    PropertyTable.listed_history (Store.tableAt_zero s c steps) fun _ => Store.tableAt_step
  have haligned : obj.table.Aligned := hlisted.aligned
  refine ⟨hlisted.nodup, fun _ => haligned.mem_order, haligned.length_order, ?_, hlisted.sorted,
    ?_, haligned.order_erase_insert⟩
  · intro name hname
    obtain ⟨i, hi⟩ := hlisted.arrived name hname
    exact ⟨i, hi, fun j hj => hj.functional hi⟩
  · intro name d hsome
    exact ⟨PropertyTable.order_insert_of_some hsome, PropertyTable.find?_insert_self,
      fun other hother => PropertyTable.find?_insert_of_ne hother⟩

/-- A property that was deleted at a site and came in again is listed after one that stayed, and
the one that stayed keeps its place when it is inserted again. -/
theorem table_in_step_again :
    let s : Store := {}
    let c : Creation := .array [.null]
    let site : DeleteSite := .new { strict := true } 4
    let steps : List ObjectStep :=
      [.edit (.insert "a" (.plain .null)), .edit (.insert "b" (.plain .null)),
        .delete (.route (.cached false site) (Value.ofString "a")),
        .edit (.insert "a" (.plain .undefined))]
    let obj := (s.allocate c.object).2.objectAt (s.allocate c.object).1 steps 4
    obj.table.order = ["b", "a"] ∧ (obj.table.find? "b").isSome = true ∧
      (obj.insert "b" (.plain .undefined)).table.order = ["b", "a"] := by
  intro s c site steps obj
  have horder : obj.table.order = ["b", "a"] := by decide
  have hsome : (obj.table.find? "b").isSome = true := by decide
  obtain ⟨-, -, -, -, -, hinsert, -⟩ := table_in_step s c steps
  exact ⟨horder, hsome, (hinsert "b" (.plain .undefined) hsome).1.trans horder⟩

end PropertyDelete
