import Teaclave.Lib.Interleaving
import Teaclave.Lib.Rpc
import Teaclave.Lib.LexCompare
import Teaclave.Lib.BinarySearch
import Teaclave.Core.Basic
import Teaclave.Tms.DataStore
import Teaclave.Tms.Handlers
import Teaclave.Tms.Invariant
import Teaclave.Fns.Worker
import Teaclave.Fns.Invoke
import Teaclave.Lib.RustStd
import Teaclave.Fns.Gbdt
import Teaclave.Fns.PrivateJoin
import Teaclave.System.Basic
import Teaclave.System.Lifecycle
import Teaclave.System.FileAuth
import Teaclave.Tdfs.Service
import Teaclave.Tdfs.Index
import Teaclave.Kms.Service
import Teaclave.Psi.Basic
import Teaclave.Lib.X86
import Teaclave.Psi.Asm
import Teaclave.Psi.Compute
import Teaclave.Rpc.TlsConfig
import Teaclave.Rpc.SendRecv
import Teaclave.Ipc.ECall
import Teaclave.Lib.PySyntax
import Teaclave.Lib.PyEval
import Teaclave.Lib.Combinator
import Teaclave.Acs.Conf
import Teaclave.Acs.Written
import Teaclave.Acs.Engine
import Teaclave.Acs.RoundTrip
import Teaclave.Acs.Marshal
import Teaclave.Attestation.Quote
import Teaclave.Lib.Der
import Teaclave.Attestation.Cert
import Teaclave.Attestation.Verifier
import Teaclave.Utils.Decode
import Teaclave.Attestation.Ias
import Teaclave.Rpc.Invoke
import Teaclave.Lib.FixedInt
import Teaclave.Leveldb.Basic
import Teaclave.Leveldb.Log
import Teaclave.Leveldb.LogRoundTrip
import Teaclave.Leveldb.LogCorruption
import Teaclave.Lib.SkipList
import Teaclave.Leveldb.SkipMap
import Teaclave.Leveldb.SkipMapSearch
import Teaclave.Leveldb.SkipMapInsert
import Teaclave.Lib.VarInt
import Teaclave.Leveldb.KeyTypes
import Teaclave.Leveldb.MemTable
import Teaclave.Leveldb.WriteBatch
import Teaclave.Leveldb.Recovery
import Teaclave.Leveldb.Snapshot
