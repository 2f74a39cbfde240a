import GuestHarness.Instance

/-! What a host asks of an instance, as data, so that statements can range over all sequences of
requests. A typed call comes with arguments of the types it names. -/
namespace GuestHarness

inductive Request where
  | invoke (exported : String) (args : List Value)
  | invokeMulti (exported : String) (args : List Value)
  | invokeTyped (exported : String) (type : Signature) (args : List Value)
      (typed : args.map Value.type = type.params)
  | readMemory (name : String) (range : Descriptor)
  | signature (exported : String)
  | exports
  | fuel

inductive Reply where
  | value (v : Option Value)
  | values (vs : List Value)
  | bytes (bs : List UInt8)
  | signature (s : Signature)
  | exports (items : List (String × ItemKind))
  | fuel (n : Option Nat)

namespace Instance

variable (i : Instance)

/-- Answers a request; only calls can change the instance. -/
def answer : Request → Account Fault Reply × Instance
  | .invoke exported args =>
    let (a, i) := i.invoke exported args
    (Reply.value <$> a, i)
  | .invokeMulti exported args =>
    let (a, i) := i.invokeMulti exported args
    (Reply.values <$> a, i)
  | .invokeTyped exported type args _ =>
    let (a, i) := i.invokeTyped exported type args
    (Reply.values <$> a, i)
  | .readMemory name range => (Reply.bytes <$> .ofExcept (i.readMemory name range), i)
  | .signature exported => (Reply.signature <$> .ofExcept (i.signature exported), i)
  | .exports => (pure (.exports i.exports), i)
  | .fuel => (pure (.fuel i.fuel), i)

/-- Answers requests one after the other, whether or not they fail. -/
def answers (i : Instance) : List Request → List (Account Fault Reply) × Instance
  | [] => ([], i)
  | r :: rs =>
    let (a, i) := i.answer r
    let (as, i) := answers i rs
    (a :: as, i)

end Instance
end GuestHarness
