import ClientGen.CommandLine.Run
import ClientGen.Proofs.Entries
import ClientGen.Proofs.Json.Printer
import ClientGen.Proofs.Workspace

/-! The mapping file. A table is read as it was written, whatever its texts are; otherwise it would
count as empty, and every name that a user gave would be lost without a word. -/
namespace ClientGen
open Json Source
variable {α β : Type} {room : Nat} {t : MappingTable}

/-- What is read as it was written one by one is so in a list. -/
theorem mapM_map_of_forall {f : β → Option α} {g : α → β} (h : ∀ a, f (g a) = some a) (as : List α) :
    (as.map g).mapM f = some as := by
  induction as with
  | nil => rfl
  | cons a as ih =>
    simp only [List.map_cons, List.mapM_cons, h, ih, Option.bind_eq_bind, Option.bind_some]
    rfl

namespace Json.Node

/-- A value where it is read back. -/
def ofValue (room : Nat) (v : Value) : Node := ⟨v.tree, room⟩

theorem keyed_memberTreesOf (room : Nat) (members : List (String × Value)) :
    keyed room (memberTreesOf members) = some (members.map fun m => (m.1, ofValue room m.2)) := by
  induction members with
  | nil => rfl
  | cons m members ih =>
    rw [memberTreesOf, keyed, ih]
    rfl

/-- A map is read as it was written if its values are, and no key is repeated. -/
theorem map?_object {read : Node → Option α} {write : α → Value} {es : Entries String α}
    (hes : (Entries.keys es).Nodup) (h : ∀ a, read (ofValue room (write a)) = some a) :
    map? read (ofValue (room + 1) (.object (es.map fun e => (e.1, write e.2)))) = some es := by
  have hentries : entries? (ofValue (room + 1) (.object (es.map fun e => (e.1, write e.2)))) =
      some (es.map fun e => (e.1, ofValue room (write e.2))) := by
    refine (keyed_memberTreesOf room _).trans ?_
    rw [List.map_map]
    rfl
  have hread := mapM_map_of_forall (f := fun m => do return (m.1, ← read m.2))
    (g := fun e : String × α => (e.1, ofValue room (write e.2))) (fun e => by simp [h]) es
  exact Option.bind_eq_some_iff.mpr ⟨_, hentries, Option.bind_eq_some_iff.mpr
    ⟨es, hread, congrArg some (Entries.ofList_of_nodup hes)⟩⟩

end Json.Node

/-- The two forms of an entry are told apart by what they are written as. -/
theorem OperationMapping.ofData?_toValue (m : OperationMapping) :
    (data? (Node.ofValue (room + 1) m.toValue)).bind ofData? = some m := by
  cases m <;> rfl

namespace MappingTable

theorem read?_toValue (ho : (Entries.keys t.operations).Nodup) (hs : (Entries.keys t.schemas).Nodup) :
    read? (.root t.toValue.tree) = some t := by
  have hrecord : record? ["operations", "schemas"] (Node.root t.toValue.tree) = some
      ⟨[("operations", Node.ofValue 126 (.object (t.operations.map fun e => (e.1, e.2.toValue)))),
        ("schemas", Node.ofValue 126 (.object (t.schemas.map fun e => (e.1, .text e.2))))], false⟩ := rfl
  have hoperations : map? (fun n => (data? n).bind OperationMapping.ofData?)
      (Node.ofValue 126 (.object (t.operations.map fun e => (e.1, e.2.toValue)))) = some t.operations :=
    Node.map?_object ho fun m => m.ofData?_toValue
  have hschemas : map? text? (Node.ofValue 126 (.object (t.schemas.map fun e => (e.1, .text e.2)))) =
      some t.schemas :=
    Node.map?_object hs fun _ => rfl
  simp [read?, hrecord, Record.defaulted, Record.field?, hoperations, hschemas]

theorem ofText?_toText (t : MappingTable) : Node.ofText? t.toText = some (.root t.toValue.tree) := by
  rw [Node.ofText?, toText, Json.ofText?_toJson]
  rfl

/-- A mapping file holds the table that was written there: its text does, a file of that text does, and
so does a file that it was written to. -/
theorem readMapping_toText (ho : (Entries.keys t.operations).Nodup)
    (hs : (Entries.keys t.schemas).Nodup) :
    (Node.ofText? t.toText).bind read? = some t ∧
      (∀ w path, w.read path = .ok t.toText → CommandLine.readMapping w path = some t) ∧
      ∀ w path w', Workspace.write w path t.toText = .ok w' →
        CommandLine.readMapping w' path = some t := by
  have htext : (Node.ofText? t.toText).bind read? = some t := by
    rw [ofText?_toText, Option.bind_some, read?_toValue ho hs]
  have hread {w path} (h : w.read path = .ok t.toText) :
      CommandLine.readMapping w path = some t := by
    have hhas : w.has path = true := by
      obtain ⟨p, hp, -⟩ := bind_eq_ok.mp h
      rw [Workspace.has, hp]
      rfl
    rw [CommandLine.readMapping, if_pos hhas, h]
    simp [ofText, htext]
  exact ⟨htext, fun _ _ => hread, fun _ _ _ hw => hread (Workspace.read_write hw)⟩

/-- Names that have to be escaped, and names that only look as if they were. -/
def awkward : MappingTable where
  operations := [("say \"hi\"", .method "a\\b"), ("", .service "" "\t\n\x1f"), ("list", .method "")]
  schemas := [("naïve 名前 😀", "\x08\x0c\r/"), ("\\u0041", "\x00\x7f")]

theorem readMapping_toText_awkward : ∃ w', Workspace.write ⟨[], []⟩ "names.json" awkward.toText = .ok w' ∧
    CommandLine.readMapping w' "names.json" = some awkward := by
  have hwrite : Workspace.write ⟨[], []⟩ "names.json" awkward.toText =
      .ok ⟨[(["names.json"], awkward.toText)], []⟩ := rfl
  exact ⟨_, hwrite, (readMapping_toText (by decide) (by decide)).2.2 _ _ _ hwrite⟩

end MappingTable
end ClientGen
