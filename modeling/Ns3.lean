import Ns3.Aodv.Freshness
import Ns3.Core.Heap.Refinement
import Ns3.Core.IidManager
import Ns3.Core.Int64x64.Text
import Ns3.Core.Object
import Ns3.Core.Simulator.Run
import Ns3.Core.Time.Resolution
import Ns3.Internet.EndPointDemux.Allocation
import Ns3.Internet.GlobalRouting.NextLinks
import Ns3.Internet.GlobalRouting.StubNode
import Ns3.Internet.Ipv4AddressGenerator
import Ns3.Internet.Ipv4Fragmentation.Partial
import Ns3.Internet.Ipv4Fragmentation.Reassembly
import Ns3.Internet.Ipv4StaticRouting
import Ns3.Internet.Ipv6Extension
import Ns3.Internet.Ipv6Fragmentation.Sizes
import Ns3.Internet.Rip.Requests
import Ns3.Internet.Rip.Runs
import Ns3.Internet.TcpHeader.RoundTrip
import Ns3.Internet.TcpRxBuffer.Occupancy
import Ns3.Internet.TcpRxBuffer.Sack
import Ns3.Internet.TcpSocketBase.FinReception
import Ns3.Internet.TcpTxBuffer.Copies
import Ns3.Internet.TcpTxBuffer.NextSeg
import Ns3.Internet.TcpTxBuffer.Transmission
import Ns3.Lte.Asn1Header.RoundTrip
import Ns3.Lte.RlcAm.Header
import Ns3.Lte.RlcUm.Delivery
import Ns3.Lte.RlcUm.Runs
import Ns3.Mpi.Distributed.Causality
import Ns3.Network.BitSerializer
import Ns3.Network.BufferIterator
import Ns3.Network.DynamicQueueLimits
import Ns3.Network.LollipopCounter
import Ns3.Network.PacketBb.AddressCoding
import Ns3.Network.PacketSerialization
import Ns3.Network.PacketTagList.Refinement
import Ns3.Network.SequenceOrder
import Ns3.Olsr.MprComputation
import Ns3.SixLowPan.Codec
import Ns3.SixLowPan.Packets
import Ns3.SixLowPan.Reassembly
import Ns3.TrafficControl.CoDel.Safety
import Ns3.TrafficControl.CoDel.Shift
import Ns3.TrafficControl.FqCoDel.Capacity
import Ns3.TrafficControl.QueueDisc.Runs
import Ns3.TrafficControl.Transmission.Runs
import Ns3.Wifi.BlockAck.Conservation
import Ns3.Wifi.BlockAck.Soundness
import Ns3.Wifi.MacRxMiddle.Runs
import Ns3.Wifi.MsduAggregation
