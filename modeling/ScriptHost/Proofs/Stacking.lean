import ScriptHost.Proofs.Decoding
import ScriptHost.Proofs.FailedLoad
/-! Texts and integers that a host pushes and takes back as texts. They come back in the opposite order, none is lost or
changed, and the host is then what it was before. -/
namespace ScriptHost

/-- What a host can push and take back as a text. -/
inductive Item where
  | text (s : String)
  | integer (i : Int64)
  deriving DecidableEq, Repr

namespace Item

/-- The request that pushes an item. -/
def push : Item → Request
  | .text s => .pushString s
  | .integer i => .pushInteger i

/-- What is on the stack of an item. -/
def value : Item → Lua.HostValue
  | .text s => .string s.toUTF8
  | .integer i => .int i

/-- The text by which an item comes back. An integer has its decimal digits, with a sign in front if it is negative. -/
def shown : Item → String
  | .text s => s
  | .integer i => toString i.toInt

/-- The requests that push items and then take as many texts. -/
def pushAndPop (items : List Item) : List Request :=
  items.map push ++ List.replicate items.length .popString

/-- What is pushed first is taken last. -/
theorem pushAndPop_cons (item : Item) (items : List Item) :
    pushAndPop (item :: items) = item.push :: (pushAndPop items ++ [.popString]) := by
  rw [pushAndPop, pushAndPop, List.map_cons, List.length_cons, List.replicate_succ', List.cons_append,
    List.append_assoc]

theorem text?_value (item : Item) : item.value.text? = some item.shown := by
  cases item with
  | text s => exact congrArg some (Text.decodeLossy_toUTF8 s)
  | integer i => rfl

end Item

namespace Host
variable {h : Host}

theorem answer_push (hi : h.interpreter.isSome) (item : Item) :
    h.answer item.push = (.ok .done, h.withStack (item.value :: h.stack)) := by
  obtain ⟨i, hi⟩ := Option.isSome_iff_exists.mp hi
  cases item with
  | text s =>
    rw [Item.push, answer_pushString, hi]
    rfl
  | integer i => rfl

/-- An item on top of the stack is taken as its text. -/
theorem answer_popString_item (hi : h.interpreter.isSome) {item : Item} {rest : List Lua.HostValue}
    (hs : h.stack = item.value :: rest) : h.answer .popString = (.ok (.text item.shown), h.withStack rest) := by
  obtain ⟨i, hi⟩ := Option.isSome_iff_exists.mp hi
  rw [answer_popString_cons h hs, textOf?_eq h hi, item.text?_value]
  rfl

/-- Whatever is on the stack below, items that are pushed and taken again come back as texts, the latest first, with
none missing and none changed, and the host is what it was before. -/
theorem pushed_items_return (hi : h.interpreter.isSome) (items : List Item) :
    (h.transcript (Item.pushAndPop items)).map (·.outcome) =
        items.map (fun _ => .ok .done) ++ items.reverse.map (fun item => .ok (.text item.shown)) ∧
      h.after (Item.pushAndPop items) = h := by
  induction items generalizing h with
  | nil => exact ⟨rfl, rfl⟩
  | cons item items ih =>
    have hpush := answer_push hi item
    have hpop : (h.withStack (item.value :: h.stack)).answer .popString = (.ok (.text item.shown), h) :=
      answer_popString_item (h := h.withStack (item.value :: h.stack)) hi rfl
    obtain ⟨houtcomes, hafter⟩ := @ih (h.withStack (item.value :: h.stack)) hi
    rw [Item.pushAndPop_cons]
    constructor
    · -- The item lies below all that the others do.
      simp only [transcript, transcript_append, hpush, hafter, hpop, List.map_cons, List.map_append, houtcomes,
        List.map_nil, List.reverse_cons, List.cons_append, List.append_assoc]
    · simp only [after, after_append, hpush, hafter, hpop]

theorem pushed_items_return_mixed :
    (offering []).interpreter.isSome ∧
      ((offering []).transcript
        [.pushString "a\x00é", .pushInteger (-7), .pushString "", .popString, .popString, .popString]).map
          (·.outcome) =
        [.ok .done, .ok .done, .ok .done, .ok (.text ""), .ok (.text "-7"), .ok (.text "a\x00é")] ∧
      (offering []).after
        [.pushString "a\x00é", .pushInteger (-7), .pushString "", .popString, .popString, .popString] =
        offering [] := by
  have hi : (offering []).interpreter.isSome := by decide +kernel
  have hitems := pushed_items_return hi [.text "a\x00é", .integer (-7), .text ""]
  exact ⟨hi, hitems.1, hitems.2⟩

end Host
end ScriptHost
