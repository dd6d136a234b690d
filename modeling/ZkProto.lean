import ZkProto.Core.Bytes
import ZkProto.Core.Decoder
import ZkProto.Core.Utf8
import ZkProto.Core.Cursor
import ZkProto.Proto.Primitive
import ZkProto.Proto.Records
import ZkProto.Proto.Requests
import ZkProto.Proto.Multi
import ZkProto.Theory.Compose
import ZkProto.Theory.Framing
import ZkProto.Theory.RoundTrip
import ZkProto.Theory.Transaction
import ZkProto.Theory.Frame
import ZkProto.Theory.Session
import ZkProto.Theory.Faults
import ZkProto.Theory.Language
import ZkProto.Theory.Replies
import ZkProto.Theory.Unambiguous
import ZkProto.Theory.Outcomes
import ZkProto.Theory.Streaming
import ZkProto.Theory.Unicode
