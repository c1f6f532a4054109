import BatchFabric.Cursor
import BatchFabric.Protocol.Messages

/-! The decoders as programs of calls on the reader. -/

namespace BatchFabric

open Decoding

namespace Program

def descriptorChecked
    (enumsOk : UInt8 → UInt8 → UInt8 → UInt8 → UInt8 → Bool) :
    Program (readDescriptorChecked enumsOk) :=
  .bind .u8 fun _ =>
  .bind (.ensure _ _) fun _ =>
  .bind .string fun _ =>
  .bind .string fun _ =>
  .bind .string fun _ =>
  .bind .string fun _ =>
  .bind .u8 fun _ =>
  .bind .u8 fun _ =>
  .bind .u8 fun _ =>
  .bind .u8 fun _ =>
  .bind .u8 fun _ =>
  .bind (.ensure _ _) fun _ =>
  .bind .u32 fun _ =>
  .bind .u32 fun _ =>
  .bind .u64 fun _ =>
  .bind .string fun _ =>
  .bind .string fun _ =>
  .bind .u32 fun _ =>
  .bind (.ensure _ _) fun _ =>
  .bind (.many (fun _ => .string) _ _) fun _ =>
  .pure _

section StateFile

open PersistenceStore

def required {read : ByteReader.Read α} (program : Program read)
    (message : String) : Program (required read message) :=
  .orError program (corrupt message)

def check (holds : Bool) (message : String) :
    Program (PersistenceStore.check holds message) :=
  .ensure holds (corrupt message)

def checked (value : Option α) (message : String) :
    Program (PersistenceStore.checked value message) :=
  .fromOption value (corrupt message)

def request (before : List PersistedRequest) :
    Program (readRequest before) :=
  .bind (.required (.id _) _) fun _ =>
  .bind (.required (.id _) _) fun _ =>
  .bind (.required (.id _) _) fun _ =>
  .bind (.required (.id _) _) fun _ =>
  .bind (.required (.descriptorChecked _) _) fun _ =>
  .bind (.required .u64 _) fun _ =>
  .bind (.required .u64 _) fun _ =>
  .bind (.required .u64 _) fun _ =>
  .bind (.required .u64 _) fun _ =>
  .bind (.required .i64 _) fun _ =>
  .bind (.required .u8 _) fun _ =>
  .bind (.required .u8 _) fun _ =>
  .bind (.check _ _) fun _ =>
  .bind (.required .string _) fun _ =>
  .bind (.required .u8 _) fun _ =>
  .bind (.checked _ _) fun _ =>
  .bind (.required .i64 _) fun _ =>
  .bind (.required (.id _) _) fun _ =>
  .bind (.required (.id _) _) fun _ =>
  .bind (.required .u64 _) fun _ =>
  .bind (.check _ _) fun _ =>
  .bind (.many (fun _ => .required (.id _) _) _ _) fun _ =>
  .bind (.check _ _) fun _ =>
  .pure _

def attempt (before : List PersistedAttempt) :
    Program (readAttempt before) :=
  .bind (.required (.id _) _) fun _ =>
  .bind (.required .u32 _) fun _ =>
  .bind (.required .u8 _) fun _ =>
  .bind (.required (.id _) _) fun _ =>
  .bind (.required .u8 _) fun _ =>
  .bind (.required .string _) fun _ =>
  .bind (.required .i64 _) fun _ =>
  .bind (.required .i64 _) fun _ =>
  .bind (.checked _ _) fun _ =>
  .bind (.check _ _) fun _ =>
  .bind (.check _ _) fun _ =>
  .pure _

def member (requests : List RequestId) : Program (readMember requests) :=
  .bind (.required (.id _) _) fun _ =>
  .bind (.check _ _) fun _ =>
  .pure _

def batch (requests : List RequestId) (before : List PersistedBatch) :
    Program (readBatch requests before) :=
  .bind (.required (.id _) _) fun _ =>
  .bind (.required (.id _) _) fun _ =>
  .bind (.required (.id _) _) fun _ =>
  .bind (.required .u8 _) fun _ =>
  .bind (.required .digest _) fun _ =>
  .bind (.checked _ _) fun _ =>
  .bind (.required .u64 _) fun _ =>
  .bind (.check _ _) fun _ =>
  .bind (.many (fun _ => .member _) _ _) fun _ =>
  .bind (.required .u32 _) fun _ =>
  .bind (.required .u64 _) fun _ =>
  .bind (.required .u64 _) fun _ =>
  .bind (.required .u64 _) fun _ =>
  .bind (.required .u64 _) fun _ =>
  .bind (.required .i64 _) fun _ =>
  .bind (.required .i64 _) fun _ =>
  .bind (.required .i64 _) fun _ =>
  .bind (.required .i64 _) fun _ =>
  .bind (.required .u8 _) fun _ =>
  .bind (.checked _ _) fun _ =>
  .bind (.required (.id _) _) fun _ =>
  .bind (.required (.id _) _) fun _ =>
  .bind (.required .u64 _) fun _ =>
  .bind (.required .u64 _) fun _ =>
  .bind (.check _ _) fun _ =>
  .bind (.many (fun _ => .required (.id _) _) _ _) fun _ =>
  .bind (.many (fun _ => .required (.id _) _) _ _) fun _ =>
  .bind (.check _ _) fun _ =>
  .pure _

def fairness : Program readFairness :=
  .bind (.required .string _) fun _ =>
  .bind (.required .u64 _) fun _ =>
  .pure _

def file : Program readFile :=
  .bind (.required .u32 _) fun _ =>
  .bind (.required .u32 _) fun _ =>
  .bind (.check _ _) fun _ =>
  .bind (.check _ _) fun _ =>
  .bind (.required (.id _) _) fun _ =>
  .bind (.required .u64 _) fun _ =>
  .bind (.required .u64 _) fun _ =>
  .bind (.required .u64 _) fun _ =>
  .bind (.required .u64 _) fun _ =>
  .bind (.required .u64 _) fun _ =>
  .bind (.required .u64 _) fun _ =>
  .bind (.required .u64 _) fun _ =>
  .bind (.check _ _) fun _ =>
  .bind (.many .request _ _) fun _ =>
  .bind (.many .attempt _ _) fun _ =>
  .bind (.many (.batch _) _ _) fun _ =>
  .bind (.required .u64 _) fun _ =>
  .bind (.check _ _) fun _ =>
  .bind (.many (fun _ => .fairness) _ _) fun _ =>
  .pure _

end StateFile

section Messages

open Protocol

def desc : Program readDesc :=
  .descriptorChecked _

def metadata : Program readMeta :=
  .bind (.id _) fun _ =>
  .bind (.id _) fun _ =>
  .bind (.id _) fun _ =>
  .bind .desc fun _ =>
  .bind .u64 fun _ =>
  .bind .u64 fun _ =>
  .bind .u64 fun _ =>
  .bind .u64 fun _ =>
  .bind .i64 fun _ =>
  .bind .u8 fun _ =>
  .bind .u8 fun _ =>
  .bind .string fun _ =>
  .pure _

def cap : Program readCap :=
  .bind (.id _) fun _ =>
  .bind .u8 fun _ =>
  .bind .u8 fun _ =>
  .bind .u32 fun _ =>
  .bind .u32 fun _ =>
  .bind .u64 fun _ =>
  .bind .u32 fun _ =>
  .bind .u64 fun _ =>
  .bind .u64 fun _ =>
  .bind .u64 fun _ =>
  .bind .u8 fun _ =>
  .pure _

def memberWork : Program readMemberWork :=
  .bind (.id _) fun _ =>
  .bind (.id _) fun _ =>
  .bind .u64 fun _ =>
  .bind .u64 fun _ =>
  .bind .u64 fun _ =>
  .bind .string fun _ =>
  .pure _

def exec : Program readExec :=
  .bind (.id _) fun _ =>
  .bind (.id _) fun _ =>
  .bind (.id _) fun _ =>
  .bind (.id _) fun _ =>
  .bind .desc fun _ =>
  .bind .u32 fun _ =>
  .bind (.ensure _ _) fun _ =>
  .bind (.many (fun _ => .memberWork) _ _) fun _ =>
  .pure _

def memberCompletion : Program readMemberCompletion :=
  .bind (.id _) fun _ =>
  .bind (.id _) fun _ =>
  .bind .u8 fun _ =>
  .bind .string fun _ =>
  .bind .u32 fun _ =>
  .bind .string fun _ =>
  .pure _

def compl : Program readCompl :=
  .bind (.id _) fun _ =>
  .bind (.id _) fun _ =>
  .bind (.id _) fun _ =>
  .bind (.id _) fun _ =>
  .bind (.id _) fun _ =>
  .bind .u32 fun _ =>
  .bind (.ensure _ _) fun _ =>
  .bind (.many (fun _ => .memberCompletion) _ _) fun _ =>
  .pure _

def register : Program readRegister :=
  .bind (.id _) fun _ =>
  .bind (.id _) fun _ =>
  .bind .cap fun _ =>
  .pure _

def submitResp : Program readSubmitResp :=
  .bind (.id _) fun _ =>
  .bind (.id _) fun _ =>
  .bind .u8 fun _ =>
  .bind .string fun _ =>
  .bind (.id _) fun _ =>
  .pure _

def ack : Program readAck :=
  .bind .u8 fun _ =>
  .bind .u32 fun _ =>
  .bind .string fun _ =>
  .pure _

def statusResp : Program readStatusResp :=
  .bind (.many (fun _ => .u64) _ _) fun _ =>
  .pure _

def cancel : Program readCancel :=
  .bind (.id _) fun _ =>
  .bind .u8 fun _ =>
  .pure _

end Messages

end Program

end BatchFabric
