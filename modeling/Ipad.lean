import Ipad.Lib.Blocks
import Ipad.Lib.Tlv
import Ipad.Lib.KeyedList
import Ipad.Lib.Except
import Ipad.Lib.LittleEndian
import Ipad.Lib.Dialogue
import Ipad.Lib.Objects
import Ipad.Lib.Memory
import Ipad.Lib.Device
import Ipad.Lib.Parts
import Ipad.Lib.Server
import Ipad.Lib.Ber
import Ipad.Libasn.BerTlv
import Ipad.Libasn.Skip
import Ipad.Libasn.Tags
import Ipad.Buf
import Ipad.Utils.Btlv
import Ipad.Utils.Asn1c
import Ipad.Utils.Strings
import Ipad.Utils.TagList
import Ipad.Utils.Hex
import Ipad.Utils.Headers
import Ipad.Utils.AsnList
import Ipad.Utils.AsnResponse
import Ipad.BppSegments
import Ipad.Euicc.Apdu
import Ipad.Euicc.Send
import Ipad.Euicc.Recv
import Ipad.Euicc.Transceive
import Ipad.Euicc.Channel
import Ipad.Euicc.Card
import Ipad.Nvstate.State
import Ipad.EimCfg.Data
import Ipad.EimCfg.Der
import Ipad.EimCfg.AddInitEim
import Ipad.EimCfg.Eco
import Ipad.EimCfg.Store
import Ipad.EimCfg.Counter
import Ipad.EimCfg.Temporaries
import Ipad.EimCfg.InitEim
import Ipad.Nvstate.Image
import Ipad.Nvstate.Load
import Ipad.Nvstate.Emu
import Ipad.Nvstate.MemRst
import Ipad.Nvstate.Restart
import Ipad.Nvstate.AutoEnable
import Ipad.Nvstate.Tokens
import Ipad.Proc.Data
import Ipad.Proc.Messages
import Ipad.Proc.OverCard
import Ipad.Proc.LoadEuiccPkg
import Ipad.Proc.PrfleInfoList
import Ipad.Proc.DwnldExec
import Ipad.Proc.NotificationList
import Ipad.Proc.PrfleInst
import Ipad.Proc.Installation
import Ipad.Proc.CardInstallation
import Ipad.Proc.MtlAuth
import Ipad.Proc.CertCheck
import Ipad.Proc.MtlAuthGate
import Ipad.Proc.IndirectDwnld
import Ipad.Proc.Envelopes
import Ipad.Proc.Sessions
import Ipad.Proc.EuiccDataReq
import Ipad.Proc.Poll
import Ipad.Proc.Inject
import Ipad.Proc.Law
import Ipad.Proc.Commands
import Ipad.Proc.Idle
import Ipad.Proc.Onset
import Ipad.Proc.Canaries
import Ipad.Proc.ReturnCode
import Ipad.Proc.Interleaving
import Ipad.Proc.InjectReport
import Ipad.Proc.EuiccDataAnswer
import Ipad.Proc.Keep
import Ipad.Proc.Execution
import Ipad.Proc.Polling
import Ipad.Proc.Removal
import Ipad.Proc.Rollback
import Ipad.Proc.AcParse
import Ipad.Euicc.Bounds
import Ipad.Proc.EsipaRetry
import Ipad.Proc.EimUrl
import Ipad.BufCalls
import Ipad.Accumulators
import Ipad.HeaderBounds
import Ipad.Http.Client
import Ipad.Http.Life
import Ipad.Proc.Main
import Ipad.Proc.Peers
import Ipad.Proc.Queue
import Ipad.Proc.Emulation
import Ipad.Proc.Download
