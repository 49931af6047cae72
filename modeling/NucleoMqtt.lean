import NucleoMqtt.Mqtt.SessionPackets
import NucleoMqtt.Mqtt.Payload
import NucleoMqtt.Mqtt.Acknowledge
import NucleoMqtt.Mqtt.Loopback
import NucleoMqtt.Mqtt.Isolation
import NucleoMqtt.Mqtt.Segmentation
import NucleoMqtt.Mqtt.PacketId
import NucleoMqtt.App.MainLoop
import NucleoMqtt.App.Opening
import NucleoMqtt.App.Order
import NucleoMqtt.Tls.Entropy
import NucleoMqtt.Tls.CertTime
import NucleoMqtt.Tls.Sent
import NucleoMqtt.Rtc.KeepTime
import NucleoMqtt.Rtc.NetworkTime
import NucleoMqtt.Net.DnsAnswer
import NucleoMqtt.Net.AddressText
import NucleoMqtt.Net.Datagram
import NucleoMqtt.Net.Dhcp
import NucleoMqtt.App.Wire
import NucleoMqtt.App.Connection
import NucleoMqtt.App.Indicators
import NucleoMqtt.App.Startup
import NucleoMqtt.App.OverTls
import NucleoMqtt.Tls.OverTcp
import NucleoMqtt.Eth.Frames
import NucleoMqtt.Eth.Sent
import NucleoMqtt.Tls.Authentication
import NucleoMqtt.App.Authenticated
