import Jancy.Api.StringPtrSafe
import Jancy.Api.VariantHash
import Jancy.Ct.ArrayIndex
import Jancy.Ct.AutoSizeArrayFit
import Jancy.Ct.BitFieldAccess
import Jancy.Ct.ByteString
import Jancy.Ct.CdeclCallConvPass
import Jancy.Ct.ChooseOverload
import Jancy.Ct.DeclTypeCalcLoop
import Jancy.Ct.EnumConsts
import Jancy.Ct.FunctionCompileTransparent
import Jancy.Ct.LlvmConstEmit
import Jancy.Ct.MlLiteralUnindent
import Jancy.Ct.OnceStmtRun
import Jancy.Ct.PrepareOperandTypes
import Jancy.Ct.PropertyAgreement
import Jancy.Ct.TemplateArgsDeduce
import Jancy.Ct.ThunkCacheRun
import Jancy.Ct.TypeMgrRun
import Jancy.Io.DatagramSocketRun
import Jancy.Io.HidRdRun
import Jancy.Io.HostNameResolverRun
import Jancy.Io.SocketOptionsRun
import Jancy.Io.SslProgressRun
import Jancy.Io.UsbAsyncControlEndpointRun
import Jancy.Io.UsbDescriptor
import Jancy.Io.UsbDeviceRun
import Jancy.Io.UsbEndpointRun
import Jancy.Io.UsbMonitorRun
import Jancy.Io.WebSocketCsv
import Jancy.Io.WebSocketHandshakeHeaders
import Jancy.Io.WebSocketMessages
import Jancy.Rt.AllocSize
import Jancy.Rt.CallSite
import Jancy.Rt.DestructGraphOrder
import Jancy.Rt.StopTheWorldRun
import Jancy.Rt.WeakClosureAlive
import Jancy.Rtl.DataPtrRange
import Jancy.Rtl.DynamicCast
import Jancy.Rtl.DynamicLayoutResume
import Jancy.Rtl.MulticastRun
import Jancy.Rtl.PromiseDelivery
import Jancy.Rtl.ReactorLoop
import Jancy.Rtl.ReactorsRenew
import Jancy.Std.MapRun
import Jancy.Std.StringBuilderRun
import Jancy.Stdt.ArrayRun
import Jancy.Stdt.Transfer
import Jancy.Sys.TimerRun
